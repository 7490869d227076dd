import McpSurfaces.Foundation.Names
import McpSurfaces.WorkLifecycle.Steps

/-!
The log of the events of tickets.

* `Named`: how the ids and the keys of events are made. **`Logged.fresh`**: those of the end of a
  task are new, as long as its link to a ticket is active.
* `Logged`: every revision of a ticket has an event, no event is of another revision, and every
  event of a ticket has its row of the outbox. **`Logged.extend`**: how a write may extend the log.
* **`event_log_complete`**: the log of every database that any run of calls leaves.
* `err_after_commit`: a call on a task that fails behind what it has committed.
-/

namespace McpSurfaces

namespace WorkLifecycle

open EventLedger (Digest)
open TaskLifecycle (Db TaskRow)
open Table (row updateWhere)
open Calls (run Each)

/-! ### Names of events -/

/-- An event of a ticket at a revision. -/
def WorkEvent.Tells (e : WorkEvent) (ticketId : String) (revision : ℤ) : Prop :=
  e.aggregateKind = .ticket ∧ e.aggregateId = ticketId ∧ e.aggregateRevision = revision

/-- How the id and the key of an event are made: by a call on a ticket, of a revision of a task, or
of the end of a task to which a ticket was linked. -/
inductive Named (links : List TaskLink) (e : WorkEvent) : Prop
  | call {x y : String} (hid : e.eventId = "event" ++ "_" ++ x)
      (hkey : e.idempotencyKey = "event:" ++ y)
  | task {x : String} (hid : e.eventId = "evt:" ++ ("task:" ++ x))
      (hkey : e.idempotencyKey = "task:" ++ x)
  | ended {l : TaskLink} {revision : ℤ} (hl : l ∈ links) (hstatus : l.status ≠ .active)
      (hid : e.eventId = "evt:" ++ terminalName l.ticketId l.taskId revision)
      (hkey : e.idempotencyKey = terminalName l.ticketId l.taskId revision)

lemma terminalName_eq (ticketId taskId : String) (revision : ℤ) :
    ∃ x, terminalName ticketId taskId revision = "ticket:" ++ x :=
  ⟨ticketId ++ ":task:" ++ taskId ++ ":terminal:" ++ toString revision, by
    simp only [terminalName, String.append_assoc]⟩

/-- The name of the end of a task names the ticket, the task and its revision. -/
lemma terminalName_injective {m n : ℤ} {taskId taskId' : String} {revision revision' : ℤ}
    (h : terminalName ("ticket-" ++ toString m) taskId revision =
      terminalName ("ticket-" ++ toString n) taskId' revision') :
    m = n ∧ taskId = taskId' ∧ revision = revision' := by
  have hnumber (n : ℤ) : ':' ∉ (toString n).toList := Names.notMem_toString rfl (by decide) n
  have hchars := congrArg String.toList h
  simp only [terminalName, String.toList_append, List.append_assoc] at hchars
  have hrest := List.append_cancel_left (List.append_cancel_left hchars)
  rw [show ":task:".toList = ':' :: "task:".toList from rfl, List.cons_append, List.cons_append,
    Names.append_cons_inj_left (hnumber m) (hnumber n)] at hrest
  obtain ⟨hm, htask⟩ := hrest
  have hrest := List.append_cancel_left htask
  rw [show ":terminal:".toList = ":terminal".toList ++ [':'] from rfl, List.append_assoc,
    List.append_assoc, List.singleton_append, List.singleton_append, ← List.append_assoc,
    ← List.append_assoc,
    Names.append_cons_inj_right (hnumber revision) (hnumber revision')] at hrest
  obtain ⟨htask, hrevision⟩ := hrest
  exact ⟨Names.toString_injective (String.ext hm), String.ext (List.append_cancel_right htask),
    Names.toString_injective (String.ext hrevision)⟩

/-- A name of another kind is not that of the end of a task. -/
lemma ne_terminal_of_call {x y name : String} (hname : ∃ z, name = "ticket:" ++ z) :
    "event" ++ "_" ++ x ≠ "evt:" ++ name ∧ "event:" ++ y ≠ name := by
  obtain ⟨z, rfl⟩ := hname
  constructor <;>
    · intro h
      have hchars := congrArg String.toList h
      simp [String.toList_append] at hchars

lemma ne_terminal_of_task {x name : String} (hname : ∃ z, name = "ticket:" ++ z) :
    "evt:" ++ ("task:" ++ x) ≠ "evt:" ++ name ∧ "task:" ++ x ≠ name := by
  obtain ⟨z, rfl⟩ := hname
  constructor <;>
    · intro h
      have hchars := congrArg String.toList h
      simp [String.toList_append] at hchars

lemma ne_terminal_of_outbox {x name : String} (hname : ∃ z, name = "ticket:" ++ z) :
    "outbox:" ++ x ≠ name := by
  obtain ⟨z, rfl⟩ := hname
  intro h
  have hchars := congrArg String.toList h
  simp [String.toList_append] at hchars

/-! ### A log -/

/-- The two ends of a link. -/
def TaskLink.ends (l : TaskLink) : String × String := (l.ticketId, l.taskId)

/-- The log of a database is complete. -/
structure Logged (w : WorkDb) : Prop where
  ids : (w.tickets.map Ticket.ticketId).Nodup
  named : ∀ t ∈ w.tickets, t.ticketId = "ticket-" ++ toString t.number
  positive : ∀ t ∈ w.tickets, 1 ≤ t.revision
  covered : ∀ t ∈ w.tickets, ∀ n, 1 ≤ n → n ≤ t.revision → ∃ e ∈ w.events, e.Tells t.ticketId n
  bounded : ∀ e ∈ w.events, e.aggregateKind = .ticket → ∃ t ∈ w.tickets,
    t.ticketId = e.aggregateId ∧ 1 ≤ e.aggregateRevision ∧ e.aggregateRevision ≤ t.revision
  published : ∀ e ∈ w.events, e.aggregateKind = .ticket → ∃ o ∈ w.outbox, o.eventId = e.eventId ∧
    (o.compactedAt = none → o.payload = e.payload)
  eventIds : (w.events.map WorkEvent.eventId).Nodup
  eventKeys : (w.events.map WorkEvent.idempotencyKey).Nodup
  names : ∀ e ∈ w.events, Named w.links e
  rows : ∀ o ∈ w.outbox, ∃ e ∈ w.events, o.eventId = e.eventId ∧
    (o.idempotencyKey = e.idempotencyKey ∨ ∃ x, o.idempotencyKey = "outbox:" ++ x)
  links : (w.links.map TaskLink.ends).Nodup
  owned : ∀ l ∈ w.links, ∃ t ∈ w.tickets, t.ticketId = l.ticketId

/-- Without tickets nothing has been logged. -/
lemma logged_empty (db : Db) : Logged { lifecycle := db } where
  ids := List.nodup_nil
  named _ h := absurd h List.not_mem_nil
  positive _ h := absurd h List.not_mem_nil
  covered _ h := absurd h List.not_mem_nil
  bounded _ h := absurd h List.not_mem_nil
  published _ h := absurd h List.not_mem_nil
  eventIds := List.nodup_nil
  eventKeys := List.nodup_nil
  names _ h := absurd h List.not_mem_nil
  rows _ h := absurd h List.not_mem_nil
  links := List.nodup_nil
  owned _ h := absurd h List.not_mem_nil

variable {w w' : WorkDb}

/-- The log does not look at the tasks and at what stands beside the tickets. -/
lemma Logged.of_same (h : Logged w) (htickets : w'.tickets = w.tickets)
    (hevents : w'.events = w.events) (houtbox : w'.outbox = w.outbox) (hlinks : w'.links = w.links) :
    Logged w' := by
  refine ⟨?_, ?_, ?_, ?_, ?_, ?_, ?_, ?_, ?_, ?_, ?_, ?_⟩ <;>
    simp only [htickets, hevents, houtbox, hlinks]
  · exact h.ids
  · exact h.named
  · exact h.positive
  · exact h.covered
  · exact h.bounded
  · exact h.published
  · exact h.eventIds
  · exact h.eventKeys
  · exact h.names
  · exact h.rows
  · exact h.links
  · exact h.owned

/-- **The end of a task is new** to the log, as long as its link is active. -/
theorem Logged.fresh (h : Logged w) {l : TaskLink} (hl : l ∈ w.links) (hactive : l.status = .active)
    (revision : ℤ) :
    (∀ e ∈ w.events, e.eventId ≠ "evt:" ++ terminalName l.ticketId l.taskId revision ∧
        e.idempotencyKey ≠ terminalName l.ticketId l.taskId revision) ∧
      ∀ o ∈ w.outbox, o.eventId ≠ "evt:" ++ terminalName l.ticketId l.taskId revision ∧
        o.idempotencyKey ≠ terminalName l.ticketId l.taskId revision := by
  have hname := terminalName_eq l.ticketId l.taskId revision
  have hevents : ∀ e ∈ w.events,
      e.eventId ≠ "evt:" ++ terminalName l.ticketId l.taskId revision ∧
        e.idempotencyKey ≠ terminalName l.ticketId l.taskId revision := by
    intro e he
    cases h.names e he with
    | call hid hkey =>
        rw [hid, hkey]
        exact ne_terminal_of_call hname
    | task hid hkey =>
        rw [hid, hkey]
        exact ne_terminal_of_task hname
    | @ended l' revision' hl' hstatus hid hkey =>
        have hother : terminalName l'.ticketId l'.taskId revision' ≠
            terminalName l.ticketId l.taskId revision := by
          intro heq
          obtain ⟨t', ht', hid'⟩ := h.owned l' hl'
          obtain ⟨t, ht, hid⟩ := h.owned l hl
          rw [← hid, ← hid', h.named t ht, h.named t' ht'] at heq
          obtain ⟨hnumber, htask, -⟩ := terminalName_injective heq
          have hsame : l'.ends = l.ends := by
            rw [TaskLink.ends, TaskLink.ends, ← hid, ← hid', h.named t ht, h.named t' ht', hnumber,
              htask]
          have := List.inj_on_of_nodup_map h.links hl' hl hsame
          exact hstatus (this ▸ hactive)
        rw [hid, hkey]
        refine ⟨fun heq => hother (String.ext ?_), hother⟩
        have hchars := congrArg String.toList heq
        rw [String.toList_append, String.toList_append] at hchars
        exact List.append_cancel_left hchars
  refine ⟨hevents, fun o ho => ?_⟩
  obtain ⟨e, he, hid, hkey | ⟨x, hkey⟩⟩ := h.rows o ho
  · rw [hid, hkey]
    exact hevents e he
  · rw [hid, hkey]
    exact ⟨(hevents e he).1, ne_terminal_of_outbox hname⟩

/-- **How a log is extended**: each ticket that has moved has one more revision, and an event for
it among the new ones. -/
theorem Logged.extend (h : Logged w) (new : List WorkEvent) (more : List OutboxRow)
    (hevents : w'.events = w.events ++ new) (houtbox : w'.outbox = w.outbox ++ more)
    (hids : (w'.tickets.map Ticket.ticketId).Nodup)
    (hnamed : ∀ t ∈ w'.tickets, t.ticketId = "ticket-" ++ toString t.number)
    (hkept : ∀ t ∈ w.tickets, ∃ t' ∈ w'.tickets, t'.ticketId = t.ticketId ∧
      t.revision ≤ t'.revision)
    (hmoved : ∀ t' ∈ w'.tickets,
      (∃ t ∈ w.tickets, t.ticketId = t'.ticketId ∧ t'.revision = t.revision) ∨
        (t'.revision = 1 ∨ ∃ t ∈ w.tickets, t.ticketId = t'.ticketId ∧
          t'.revision = t.revision + 1) ∧ ∃ e ∈ new, e.Tells t'.ticketId t'.revision)
    (hnew : ∀ e ∈ new, e.aggregateKind = .ticket →
      (∃ t' ∈ w'.tickets, t'.ticketId = e.aggregateId ∧ 1 ≤ e.aggregateRevision ∧
        e.aggregateRevision ≤ t'.revision) ∧
        ∃ o ∈ more, o.eventId = e.eventId ∧ o.payload = e.payload)
    (heventIds : ((w.events ++ new).map WorkEvent.eventId).Nodup)
    (heventKeys : ((w.events ++ new).map WorkEvent.idempotencyKey).Nodup)
    (hnames : ∀ e ∈ new, Named w'.links e)
    (hrows : ∀ o ∈ more, ∃ e ∈ w.events ++ new, o.eventId = e.eventId ∧
      (o.idempotencyKey = e.idempotencyKey ∨ ∃ x, o.idempotencyKey = "outbox:" ++ x))
    (hlinks : (w'.links.map TaskLink.ends).Nodup)
    (howned : ∀ l ∈ w'.links, ∃ t ∈ w'.tickets, t.ticketId = l.ticketId)
    (hended : ∀ l ∈ w.links, l.status ≠ .active →
      ∃ l' ∈ w'.links, l'.status ≠ .active ∧ l'.ticketId = l.ticketId ∧ l'.taskId = l.taskId) :
    Logged w' where
  ids := hids
  named := hnamed
  positive t' ht' := by
    rcases hmoved t' ht' with ⟨t, ht, -, hrevision⟩ | ⟨hone | ⟨t, ht, -, hrevision⟩, -⟩
    · exact hrevision ▸ h.positive t ht
    · omega
    · have := h.positive t ht
      omega
  covered t' ht' n hn hle := by
    have hold {t : Ticket} (ht : t ∈ w.tickets) (hid : t.ticketId = t'.ticketId)
        (hle : n ≤ t.revision) : ∃ e ∈ w'.events, e.Tells t'.ticketId n := by
      obtain ⟨e, he, htells⟩ := h.covered t ht n hn hle
      exact ⟨e, hevents ▸ List.mem_append_left _ he, hid ▸ htells⟩
    rcases hmoved t' ht' with ⟨t, ht, hid, hrevision⟩ | ⟨hstep, e, he, htells⟩
    · exact hold ht hid (by omega)
    · by_cases hlast : n = t'.revision
      · exact ⟨e, hevents ▸ List.mem_append_right _ he, hlast ▸ htells⟩
      · rcases hstep with hone | ⟨t, ht, hid, hrevision⟩
        · omega
        · exact hold ht hid (by omega)
  bounded e he hkind := by
    rw [hevents] at he
    rcases List.mem_append.mp he with he | he
    · obtain ⟨t, ht, hid, hpositive, hle⟩ := h.bounded e he hkind
      obtain ⟨t', ht', hid', hle'⟩ := hkept t ht
      exact ⟨t', ht', hid'.trans hid, hpositive, hle.trans hle'⟩
    · exact (hnew e he hkind).1
  published e he hkind := by
    rw [hevents] at he
    rcases List.mem_append.mp he with he | he
    · obtain ⟨o, ho, hid, hpayload⟩ := h.published e he hkind
      exact ⟨o, houtbox ▸ List.mem_append_left _ ho, hid, hpayload⟩
    · obtain ⟨o, ho, hid, hpayload⟩ := (hnew e he hkind).2
      exact ⟨o, houtbox ▸ List.mem_append_right _ ho, hid, fun _ => hpayload⟩
  eventIds := hevents ▸ heventIds
  eventKeys := hevents ▸ heventKeys
  names e he := by
    rw [hevents] at he
    rcases List.mem_append.mp he with he | he
    · cases h.names e he with
      | call hid hkey => exact .call hid hkey
      | task hid hkey => exact .task hid hkey
      | ended hl hstatus hid hkey =>
          obtain ⟨l', hl', hstatus', hticket, htask⟩ := hended _ hl hstatus
          rw [← hticket, ← htask] at hid hkey
          exact .ended hl' hstatus' hid hkey
    · exact hnames e he
  rows o ho := by
    rw [houtbox] at ho
    rcases List.mem_append.mp ho with ho | ho
    · obtain ⟨e, he, hnames⟩ := h.rows o ho
      exact ⟨e, hevents ▸ List.mem_append_left _ he, hnames⟩
    · obtain ⟨e, he, hnames⟩ := hrows o ho
      exact ⟨e, hevents ▸ he, hnames⟩
  links := hlinks
  owned := howned

/-! ### What is published -/

/-- Two events with different ids and keys. -/
def Apart (e e' : WorkEvent) : Prop :=
  e.eventId ≠ e'.eventId ∧ e.idempotencyKey ≠ e'.idempotencyKey

lemma not_eventTaken {e : WorkEvent} (h : ∀ old ∈ w.events, Apart old e) : ¬ w.EventTaken e := by
  rintro ⟨old, hold, hid | hkey⟩
  · exact (h old hold).1 hid
  · exact (h old hold).2 hkey

lemma apart_of_not_eventTaken {e : WorkEvent} (h : ¬ w.EventTaken e) :
    ∀ old ∈ w.events, Apart old e :=
  fun old hold => ⟨fun hid => h ⟨old, hold, .inl hid⟩, fun hkey => h ⟨old, hold, .inr hkey⟩⟩

/-- An insertion of one event keeps the ids and the keys distinct. -/
lemma nodup_append_event {κ : Type} {key : WorkEvent → κ} {events : List WorkEvent} {e : WorkEvent}
    (h : (events.map key).Nodup) (hnew : ∀ old ∈ events, key old ≠ key e) :
    ((events ++ [e]).map key).Nodup := by
  rw [List.map_append, List.map_singleton, List.nodup_append]
  refine ⟨h, List.nodup_singleton _, fun x hx y hy => ?_⟩
  obtain ⟨old, hold, rfl⟩ := List.mem_map.mp hx
  rw [List.mem_singleton.mp hy]
  exact hnew old hold

/-- Events that are new, and different from each other, are all inserted. -/
lemma foldl_insertEventOrIgnore_of_apart {events : List WorkEvent}
    (hnew : ∀ e ∈ events, ∀ old ∈ w.events, Apart old e) (hapart : events.Pairwise Apart) :
    events.foldl WorkDb.insertEventOrIgnore w = { w with events := w.events ++ events } := by
  induction events generalizing w with
  | nil => simp
  | cons e rest ih =>
      obtain ⟨hfirst, hrest⟩ := List.pairwise_cons.mp hapart
      have htaken : ¬ w.EventTaken e := not_eventTaken (hnew e List.mem_cons_self)
      rw [List.foldl_cons, WorkDb.insertEventOrIgnore, if_neg htaken, ih ?_ hrest]
      · simp
      · intro e' he' old hold
        rcases List.mem_append.mp hold with hold | hold
        · exact hnew e' (List.mem_cons_of_mem _ he') old hold
        · rw [List.mem_singleton.mp hold]
          exact hfirst e' he'

/-- The row of the outbox for an event that is there, under names that are new. -/
lemma insertOutboxOrIgnore_of_mem {topic partitionKey : String} {e : WorkEvent}
    (hids : (w.events.map WorkEvent.eventId).Nodup) (he : e ∈ w.events)
    (hnew : ∀ o ∈ w.outbox, o.eventId ≠ e.eventId ∧ o.idempotencyKey ≠ e.idempotencyKey) :
    w.insertOutboxOrIgnore topic partitionKey e.eventId =
      { w with outbox := w.outbox ++ [WorkDb.outboxRow topic partitionKey e] } := by
  have hfound : (w.events.find? fun old => old.eventId = e.eventId) = some e :=
    Lists.find?_of_nodup hids he
  have htaken : ¬ w.OutboxTaken (WorkDb.outboxRow topic partitionKey e) := by
    rintro ⟨o, ho, hid | hkey⟩
    · exact (hnew o ho).1 hid
    · exact (hnew o ho).2 hkey
  rw [WorkDb.insertOutboxOrIgnore, hfound]
  simp only [if_neg htaken]

/-- The rows of the outbox for events that are there, under names that are new. -/
lemma foldl_insertOutboxOrIgnore_of_mem {topic : String} {entries : List (String × WorkEvent)}
    (hids : (w.events.map WorkEvent.eventId).Nodup) (hmem : ∀ x ∈ entries, x.2 ∈ w.events)
    (hnew : ∀ x ∈ entries, ∀ o ∈ w.outbox,
      o.eventId ≠ x.2.eventId ∧ o.idempotencyKey ≠ x.2.idempotencyKey)
    (hapart : entries.Pairwise fun x y => Apart x.2 y.2) :
    (entries.map fun x => (x.1, x.2.eventId)).foldl
        (fun w e => w.insertOutboxOrIgnore topic e.1 e.2) w =
      { w with
        outbox := w.outbox ++ entries.map fun x => WorkDb.outboxRow topic x.1 x.2 } := by
  induction entries generalizing w with
  | nil => simp
  | cons x rest ih =>
      obtain ⟨hfirst, hrest⟩ := List.pairwise_cons.mp hapart
      rw [List.map_cons, List.foldl_cons, insertOutboxOrIgnore_of_mem hids
        (hmem x List.mem_cons_self) (hnew x List.mem_cons_self)]
      refine (ih (w := { w with outbox := w.outbox ++ [WorkDb.outboxRow topic x.1 x.2] }) hids
        (fun y hy => hmem y (List.mem_cons_of_mem _ hy)) ?_ hrest).trans ?_
      · intro y hy o ho
        rcases List.mem_append.mp ho with ho | ho
        · exact hnew y (List.mem_cons_of_mem _ hy) o ho
        · rw [List.mem_singleton.mp ho]
          exact hfirst y hy
      · simp

/-- The log does not mind an event of a task. -/
lemma Logged.publish (h : Logged w) {topic partitionKey : String} {e : WorkEvent}
    (hkind : e.aggregateKind = .task) (hname : Named [] e) :
    Logged (w.publish topic partitionKey e) := by
  have hnoted : Logged (w.insertEventOrIgnore e) := by
    rw [WorkDb.insertEventOrIgnore]
    split
    · exact h
    · next htaken =>
        have hapart := apart_of_not_eventTaken htaken
        refine h.extend [e] [] rfl (by simp) h.ids h.named
          (fun t ht => ⟨t, ht, rfl, le_rfl⟩) (fun t ht => .inl ⟨t, ht, rfl, rfl⟩) ?_
          (nodup_append_event h.eventIds fun old hold => (hapart old hold).1)
          (nodup_append_event h.eventKeys fun old hold => (hapart old hold).2) ?_
          (fun o ho => by cases ho) h.links h.owned
          (fun l hl hstatus => ⟨l, hl, hstatus, rfl, rfl⟩)
        · intro e' he' hticket
          rw [List.mem_singleton.mp he', hkind] at hticket
          cases hticket
        · intro e' he'
          rw [List.mem_singleton.mp he']
          cases hname with
          | call hid hkey => exact .call hid hkey
          | task hid hkey => exact .task hid hkey
          | ended hl => cases hl
  rw [WorkDb.publish, WorkDb.insertOutboxOrIgnore]
  split
  · exact hnoted
  · next found hfound =>
      simp only
      split
      · exact hnoted
      · refine hnoted.extend [] [_] (by simp) rfl hnoted.ids hnoted.named
          (fun t ht => ⟨t, ht, rfl, le_rfl⟩) (fun t ht => .inl ⟨t, ht, rfl, rfl⟩)
          (fun e he => by cases he) (by simpa using hnoted.eventIds)
          (by simpa using hnoted.eventKeys) (fun e he => by cases he) ?_ hnoted.links hnoted.owned
          (fun l hl hstatus => ⟨l, hl, hstatus, rfl, rfl⟩)
        intro o ho
        rw [List.mem_singleton.mp ho]
        exact ⟨found, List.mem_append_left _ (List.mem_of_find?_eq_some hfound), rfl, .inl rfl⟩

/-! ### The end of a task -/

/-- The names of the ends of tasks differ for different tickets. -/
lemma Logged.ticketId_eq (h : Logged w) {t t' : Ticket} (ht : t ∈ w.tickets) (ht' : t' ∈ w.tickets)
    {taskId taskId' : String} {revision revision' : ℤ}
    (heq : terminalName t.ticketId taskId revision = terminalName t'.ticketId taskId' revision') :
    t.ticketId = t'.ticketId := by
  rw [h.named t ht, h.named t' ht'] at heq ⊢
  rw [(terminalName_injective heq).1]

/-- The links of a task belong to different tickets. -/
lemma Logged.waiting_distinct (h : Logged w) (taskId : String) :
    (w.waiting taskId).Pairwise fun l l' => l.ticketId ≠ l'.ticketId := by
  have hends : (w.waiting taskId).Pairwise fun l l' => l.ends ≠ l'.ends :=
    (List.pairwise_map.mp h.links).filter _
  refine hends.imp_of_mem fun {l l'} hl hl' hne hticket => hne ?_
  have htask : l.taskId = taskId := (of_decide_eq_true (List.mem_filter.mp hl).2).1
  have htask' : l'.taskId = taskId := (of_decide_eq_true (List.mem_filter.mp hl').2).1
  rw [TaskLink.ends, TaskLink.ends, hticket, htask, htask']

/-- The tickets that are taken up at an end. -/
def WorkDb.takenUp (w : WorkDb) (new : TaskRow) : WorkDb :=
  { w with
    tickets := updateWhere (fun t => t.ticketId ∈ (w.waiting new.taskId).map TaskLink.ticketId)
      (Ticket.takenUp new.updatedAt) w.tickets }

/-- The events of an end, each with its ticket. -/
def endings (w : WorkDb) (old new : TaskRow) : List (String × WorkEvent) :=
  (w.waiting new.taskId).filterMap fun l =>
    ((w.takenUp new).ticket l.ticketId).map fun t => (l.ticketId, taskTerminal old new t)

variable {old new : TaskRow}

lemma mem_endings {x : String × WorkEvent} (hx : x ∈ endings w old new) :
    ∃ l t, l ∈ w.links ∧ l.taskId = new.taskId ∧ l.status = .active ∧ t.ticketId = l.ticketId ∧
      t ∈ (w.takenUp new).tickets ∧ x = (l.ticketId, taskTerminal old new t) := by
  obtain ⟨l, hl, hx⟩ := List.mem_filterMap.mp hx
  obtain ⟨t, ht, rfl⟩ := Option.map_eq_some_iff.mp hx
  obtain ⟨hmem, hwaits⟩ := List.mem_filter.mp hl
  obtain ⟨htask, hstatus⟩ := of_decide_eq_true hwaits
  exact ⟨l, t, hmem, htask, hstatus, Table.key_of_row ht, Table.mem_of_row ht, rfl⟩

lemma ticket_takenUp (w : WorkDb) (new : TaskRow) (id : String) :
    (w.takenUp new).ticket id = (w.ticket id).map fun t =>
      if t.ticketId ∈ (w.waiting new.taskId).map TaskLink.ticketId then
        t.takenUp new.updatedAt else t := by
  have hset : ∀ t : Ticket, t.ticketId ∈ (w.waiting new.taskId).map TaskLink.ticketId →
      (t.takenUp new.updatedAt).ticketId = t.ticketId := fun _ _ => rfl
  exact Table.row_updateWhere hset id

/-- Every ticket that waits is there. -/
lemma Logged.takenUp_ticket (h : Logged w) (new : TaskRow) {l : TaskLink} (hl : l ∈ w.links) :
    ∃ t, (w.takenUp new).ticket l.ticketId = some t ∧ t.ticketId = l.ticketId := by
  obtain ⟨t, ht, hid⟩ := h.owned l hl
  have hrow : w.ticket l.ticketId = some t := hid ▸ Table.row_of_mem h.ids ht
  have hmoved := ticket_takenUp w new l.ticketId
  rw [hrow, Option.map_some] at hmoved
  exact ⟨_, hmoved, Table.key_of_row hmoved⟩

lemma Logged.takenUp_positive (h : Logged w) {t : Ticket} (ht : t ∈ (w.takenUp new).tickets) :
    1 ≤ t.revision := by
  obtain ⟨before, hbefore, rfl⟩ := Table.mem_updateWhere.mp ht
  have hpositive := h.positive before hbefore
  split
  · have hnext : 1 ≤ before.revision + 1 := by omega
    exact hnext
  · exact hpositive

lemma endings_events :
    (w.takenUp new).terminalEvents old new = (endings w old new).map Prod.snd := by
  rw [endings, List.map_filterMap]
  refine List.filterMap_congr fun l _ => ?_
  rw [Option.map_map]
  rfl

lemma Logged.endings_rows (h : Logged w) :
    ((w.waiting new.taskId).map fun l =>
      (l.ticketId, "evt:" ++ terminalName l.ticketId new.taskId (old.revision + 1))) =
      (endings w old new).map fun x => (x.1, x.2.eventId) := by
  rw [endings, List.map_filterMap, ← List.filterMap_eq_map]
  refine List.filterMap_congr fun l hl => ?_
  obtain ⟨t, ht, hid⟩ := h.takenUp_ticket new (List.mem_of_mem_filter hl)
  rw [ht, Option.map_some, Option.map_some]
  show some (l.ticketId, "evt:" ++ terminalName l.ticketId new.taskId (old.revision + 1)) =
    some (l.ticketId, "evt:" ++ terminalName t.ticketId new.taskId (old.revision + 1))
  rw [hid]

/-- The events of an end differ from each other. -/
lemma Logged.endings_apart (h : Logged w) :
    (endings w old new).Pairwise fun x y => Apart x.2 y.2 := by
  have hids : (endings w old new).Pairwise fun x y => x.1 ≠ y.1 := by
    refine List.Pairwise.filterMap _ (fun l l' hne x hx y hy => ?_) (h.waiting_distinct new.taskId)
    obtain ⟨t, -, rfl⟩ := Option.map_eq_some_iff.mp hx
    obtain ⟨t', -, rfl⟩ := Option.map_eq_some_iff.mp hy
    exact hne
  refine hids.imp_of_mem fun {x y} hx hy hne => ?_
  obtain ⟨l, t, hl, -, -, hid, -, rfl⟩ := mem_endings hx
  obtain ⟨l', t', hl', -, -, hid', -, rfl⟩ := mem_endings hy
  have hname : terminalName t.ticketId new.taskId (old.revision + 1) ≠
      terminalName t'.ticketId new.taskId (old.revision + 1) := by
    intro heq
    obtain ⟨s, hs, hsid⟩ := h.owned l hl
    obtain ⟨s', hs', hsid'⟩ := h.owned l' hl'
    rw [hid, hid', ← hsid, ← hsid'] at heq
    exact hne (hsid ▸ hsid' ▸ h.ticketId_eq hs hs' heq)
  refine ⟨fun heq => hname (String.ext ?_), hname⟩
  have hchars := congrArg String.toList heq
  simp only [taskTerminal, String.toList_append] at hchars
  simpa [String.toList_append] using List.append_cancel_left hchars

/-- The events of an end are new. -/
lemma Logged.endings_fresh (h : Logged w) {x : String × WorkEvent} (hx : x ∈ endings w old new) :
    (∀ e ∈ w.events, Apart e x.2) ∧
      ∀ o ∈ w.outbox, o.eventId ≠ x.2.eventId ∧ o.idempotencyKey ≠ x.2.idempotencyKey := by
  obtain ⟨l, t, hl, htask, hactive, hid, -, rfl⟩ := mem_endings hx
  have hfresh := h.fresh hl hactive (old.revision + 1)
  rw [← hid, htask] at hfresh
  exact hfresh

/-- The ids and the keys of the events stay distinct at an end. -/
lemma Logged.nodup_endings (h : Logged w) {key : WorkEvent → String}
    (hkey : ∀ e e', Apart e e' → key e ≠ key e') (hold : (w.events.map key).Nodup) :
    ((w.events ++ (endings w old new).map Prod.snd).map key).Nodup := by
  rw [List.map_append, List.nodup_append, List.map_map]
  refine ⟨hold, List.pairwise_map.mpr (h.endings_apart.imp fun hapart => hkey _ _ hapart), ?_⟩
  intro x hx y hy
  obtain ⟨e, he, rfl⟩ := List.mem_map.mp hx
  obtain ⟨e', he', rfl⟩ := List.mem_map.mp hy
  exact hkey _ _ ((h.endings_fresh he').1 e he)

/-- What an end leaves: all of its events and rows of the outbox are inserted. -/
lemma Logged.reactivateTickets_eq (h : Logged w) :
    w.reactivateTickets old new = { w.takenUp new with
      events := w.events ++ (endings w old new).map Prod.snd
      outbox := w.outbox ++ (endings w old new).map fun x =>
        WorkDb.outboxRow "work.ticket-work-due.v1" x.1 x.2
      links := updateWhere (fun l => l.taskId = new.taskId ∧ l.status = .active)
        (fun l => { l with status := .terminal, terminalAt := some new.updatedAt }) w.links } := by
  have hevents : ((w.takenUp new).terminalEvents old new).foldl WorkDb.insertEventOrIgnore
      (w.takenUp new) = { w.takenUp new with
        events := w.events ++ (endings w old new).map Prod.snd } := by
    rw [endings_events]
    refine foldl_insertEventOrIgnore_of_apart ?_ (List.pairwise_map.mpr h.endings_apart)
    intro e he
    obtain ⟨x, hx, rfl⟩ := List.mem_map.mp he
    exact (h.endings_fresh hx).1
  have hrows : ((w.waiting new.taskId).map fun l =>
        (l.ticketId, "evt:" ++ terminalName l.ticketId new.taskId (old.revision + 1))).foldl
          (fun w e => w.insertOutboxOrIgnore "work.ticket-work-due.v1" e.1 e.2)
          { w.takenUp new with events := w.events ++ (endings w old new).map Prod.snd } =
      { w.takenUp new with
        events := w.events ++ (endings w old new).map Prod.snd
        outbox := w.outbox ++ (endings w old new).map fun x =>
          WorkDb.outboxRow "work.ticket-work-due.v1" x.1 x.2 } := by
    rw [h.endings_rows]
    refine foldl_insertOutboxOrIgnore_of_mem
      (h.nodup_endings (fun _ _ hapart => hapart.1) h.eventIds) (fun x hx => ?_)
      (fun x hx => (h.endings_fresh hx).2) h.endings_apart
    exact List.mem_append_right _ (List.mem_map_of_mem hx)
  have htakenUp : ({ w with
      tickets := updateWhere (fun t => t.ticketId ∈ (w.waiting new.taskId).map TaskLink.ticketId)
        (Ticket.takenUp new.updatedAt) w.tickets } : WorkDb) = w.takenUp new := rfl
  simp only [WorkDb.reactivateTickets]
  rw [htakenUp, hevents, hrows]
  rfl

/-- A ticket of which a task has ended has an event for its revision. -/
lemma Logged.exists_ending (h : Logged w) {t : Ticket} (ht : t ∈ w.tickets)
    (hwaits : t.ticketId ∈ (w.waiting new.taskId).map TaskLink.ticketId) :
    ∃ e ∈ (endings w old new).map Prod.snd, e.Tells t.ticketId (t.revision + 1) := by
  obtain ⟨l, hl, hid⟩ := List.mem_map.mp hwaits
  have hrow : (w.takenUp new).ticket l.ticketId = some (t.takenUp new.updatedAt) := by
    have hticket : w.ticket l.ticketId = some t := hid ▸ Table.row_of_mem h.ids ht
    rw [ticket_takenUp, hticket, Option.map_some, if_pos hwaits]
  refine ⟨taskTerminal old new (t.takenUp new.updatedAt), ?_, rfl, rfl, rfl⟩
  refine List.mem_map.mpr ⟨(l.ticketId, taskTerminal old new (t.takenUp new.updatedAt)),
    List.mem_filterMap.mpr ⟨l, hl, ?_⟩, rfl⟩
  rw [hrow, Option.map_some]

/-- **The end of a task is logged**: every ticket that it takes up has an event for its
revision. -/
theorem Logged.reactivateTickets (h : Logged w) (old new : TaskRow) :
    Logged (w.reactivateTickets old new) := by
  have hids : (w.takenUp new).tickets.map Ticket.ticketId = w.tickets.map Ticket.ticketId :=
    Table.keys_updateWhere fun _ _ => rfl
  have hends : (updateWhere (fun l => l.taskId = new.taskId ∧ l.status = .active)
      (fun l => { l with status := .terminal, terminalAt := some new.updatedAt })
      w.links).map TaskLink.ends = w.links.map TaskLink.ends :=
    Table.keys_updateWhere fun _ _ => rfl
  rw [h.reactivateTickets_eq]
  refine h.extend _ _ rfl rfl (hids ▸ h.ids) ?named ?kept ?moved ?told
    (h.nodup_endings (fun _ _ hapart => hapart.1) h.eventIds)
    (h.nodup_endings (fun _ _ hapart => hapart.2) h.eventKeys) ?names ?rows (hends ▸ h.links)
    ?owned ?ended
  case named =>
    intro t' ht'
    obtain ⟨t, ht, rfl⟩ := Table.mem_updateWhere.mp ht'
    split <;> exact h.named t ht
  case kept =>
    intro t ht
    refine ⟨_, Table.mem_updateWhere.mpr ⟨t, ht, rfl⟩, ?_⟩
    split
    · exact ⟨rfl, by simp [Ticket.takenUp]⟩
    · exact ⟨rfl, le_rfl⟩
  case moved =>
    intro t' ht'
    obtain ⟨t, ht, rfl⟩ := Table.mem_updateWhere.mp ht'
    split
    · next hwaits => exact .inr ⟨.inr ⟨t, ht, rfl, rfl⟩, h.exists_ending ht hwaits⟩
    · exact .inl ⟨t, ht, rfl, rfl⟩
  case told =>
    intro e he _
    obtain ⟨x, hx, rfl⟩ := List.mem_map.mp he
    refine ⟨?_, _, List.mem_map_of_mem hx, rfl, rfl⟩
    obtain ⟨l, t, -, -, -, -, ht, rfl⟩ := mem_endings hx
    exact ⟨t, ht, rfl, h.takenUp_positive ht, le_rfl⟩
  case names =>
    intro e he
    obtain ⟨x, hx, rfl⟩ := List.mem_map.mp he
    obtain ⟨l, t, hl, htask, hactive, hid, -, rfl⟩ := mem_endings hx
    refine @Named.ended _ _ { l with status := .terminal, terminalAt := some new.updatedAt }
      (old.revision + 1) (Table.mem_updateWhere.mpr ⟨l, hl, ?_⟩) (by simp) ?_ ?_
    · rw [if_pos ⟨htask, hactive⟩]
    · rw [htask, ← hid]
      rfl
    · rw [htask, ← hid]
      rfl
  case rows =>
    intro o ho
    obtain ⟨x, hx, rfl⟩ := List.mem_map.mp ho
    exact ⟨x.2, List.mem_append_right _ (List.mem_map_of_mem hx), rfl, .inl rfl⟩
  case owned =>
    intro l' hl'
    obtain ⟨l, hl, rfl⟩ := Table.mem_updateWhere.mp hl'
    obtain ⟨t, ht, hid⟩ := h.owned l hl
    refine ⟨_, Table.mem_updateWhere.mpr ⟨t, ht, rfl⟩, ?_⟩
    split <;> split <;> exact hid
  case ended =>
    intro l hl hstatus
    refine ⟨_, Table.mem_updateWhere.mpr ⟨l, hl, rfl⟩, ?_⟩
    rw [if_neg fun hboth => hstatus hboth.2]
    exact ⟨hstatus, rfl, rfl⟩

/-! ### Writes to the table of tasks -/

lemma named_taskRevision {e : WorkEvent} {taskId : String} {revision : ℤ}
    (hid : e.eventId = "evt:" ++ taskRevisionName taskId revision)
    (hkey : e.idempotencyKey = taskRevisionName taskId revision) : Named [] e := by
  have hname : taskRevisionName taskId revision =
      "task:" ++ (taskId ++ (":revision:" ++ toString revision)) := by
    rw [taskRevisionName, String.append_assoc, String.append_assoc]
  rw [hname] at hid hkey
  exact .task hid hkey

/-- **The log does not mind what is written to the table of tasks.** -/
theorem taskKept_logged : TaskKept Logged where
  update w taskId ofStatus set _ h := by
    cases hold : w.lifecycle.task taskId with
    | none => rwa [w.updateTask_of_none hold]
    | some old =>
        have hset : Logged (w.setTask taskId set) := h.of_same rfl rfl rfl rfl
        have hrevised : Logged (if (set old).revision = old.revision then
            (w.setTask taskId set).revisionEvent old (set old) else w.setTask taskId set) := by
          split
          · have hcounted : Logged ((w.setTask taskId set).setTask (set old).taskId
                fun t => { t with revision := old.revision + 1 }) := hset.of_same rfl rfl rfl rfl
            have hname : Named [] (taskChanged old (set old)) := named_taskRevision rfl rfl
            exact hcounted.publish rfl hname
          · exact hset
        simp only [WorkDb.updateTask, hold]
        split
        · exact hrevised.reactivateTickets _ _
        · exact hrevised
  insert w new _ _ _ _ h := by
    have hinserted : Logged { w with
        lifecycle := { w.lifecycle with tasks := w.lifecycle.tasks ++ [new] } } :=
      h.of_same rfl rfl rfl rfl
    have hname : Named [] (taskCreated new) := named_taskRevision rfl rfl
    exact hinserted.publish rfl hname
  tables _ _ h := h.of_same rfl rfl rfl rfl

/-! ### Calls on tickets -/

/-- The log does not mind a quiet call. -/
lemma Logged.quiet (h : Logged w) (hquiet : Quiet w w') : Logged w' := by
  obtain ⟨due, now, houtbox⟩ := hquiet.outbox
  have hsame : Logged { w' with outbox := w.outbox } :=
    h.of_same hquiet.tickets hquiet.events rfl hquiet.links
  refine { hsame with published := fun e he hkind => ?_, rows := fun o ho => ?_ }
  · obtain ⟨o, ho, hid, hpayload⟩ := hsame.published e he hkind
    refine ⟨_, houtbox ▸ Table.mem_updateWhere.mpr ⟨o, ho, rfl⟩, ?_⟩
    split
    · exact ⟨hid, nofun⟩
    · exact ⟨hid, hpayload⟩
  · rw [houtbox] at ho
    obtain ⟨before, hbefore, rfl⟩ := Table.mem_updateWhere.mp ho
    have hrows := hsame.rows before hbefore
    split <;> exact hrows

section Calls

variable [FloatText] [Digest]

/-- **The end of a call is logged**: its ticket has one more revision, or the one that it had. -/
lemma Logged.concluded (h : Logged w) (body : WorkDb) {t : Ticket} {n : EventNote}
    (hevents : body.events = w.events) (houtbox : body.outbox = w.outbox)
    (hlinks : body.links = w.links) (hids : (body.tickets.map Ticket.ticketId).Nodup)
    (hnamed : ∀ t ∈ body.tickets, t.ticketId = "ticket-" ++ toString t.number)
    (hkept : ∀ t ∈ w.tickets, ∃ t' ∈ body.tickets, t'.ticketId = t.ticketId ∧
      t.revision ≤ t'.revision)
    (hmoved : ∀ t' ∈ body.tickets,
      (∃ t ∈ w.tickets, t.ticketId = t'.ticketId ∧ t'.revision = t.revision) ∨
        (t'.revision = 1 ∨ ∃ t ∈ w.tickets, t.ticketId = t'.ticketId ∧
          t'.revision = t.revision + 1) ∧ t' = t)
    (ht : t ∈ body.tickets) (hconcluded : Concluded body t n w') : Logged w' := by
  have hpositive : 1 ≤ t.revision := by
    rcases hmoved t ht with ⟨t₀, ht₀, -, hrevision⟩ | ⟨hone | ⟨t₀, ht₀, -, hrevision⟩, -⟩
    · exact hrevision ▸ h.positive t₀ ht₀
    · omega
    · have := h.positive t₀ ht₀
      omega
  have hapart : ∀ e ∈ w.events, Apart e (n.event t) :=
    hevents ▸ apart_of_not_eventTaken hconcluded.event
  obtain ⟨o, -, rfl⟩ := hconcluded.behind
  refine h.extend [n.event t] [n.outbox t] (by rw [← hevents]) (by rw [← houtbox]) hids hnamed
    hkept (fun t' ht' => ?_) (fun e he _ => ?_)
    (nodup_append_event h.eventIds fun e he => (hapart e he).1)
    (nodup_append_event h.eventKeys fun e he => (hapart e he).2) (fun e he => ?_)
    (fun o ho => ?_) (hlinks ▸ h.links) (fun l hl => ?_)
    (fun l hl hstatus => ⟨l, hlinks ▸ hl, hstatus, rfl, rfl⟩)
  · rcases hmoved t' ht' with hold | ⟨hstep, rfl⟩
    · exact .inl hold
    · exact .inr ⟨hstep, n.event t', List.mem_singleton_self _, rfl, rfl, rfl⟩
  · rw [List.mem_singleton.mp he]
    exact ⟨⟨t, ht, rfl, hpositive, le_rfl⟩, n.outbox t, List.mem_singleton_self _, rfl, rfl⟩
  · rw [List.mem_singleton.mp he]
    exact .call rfl rfl
  · rw [List.mem_singleton.mp ho]
    exact ⟨n.event t, List.mem_append_right _ (List.mem_singleton_self _), rfl, .inr ⟨_, rfl⟩⟩
  · obtain ⟨t₀, ht₀, hid⟩ := h.owned l (hlinks ▸ hl)
    obtain ⟨t', ht', hid', -⟩ := hkept t₀ ht₀
    exact ⟨t', ht', hid'.trans hid⟩

/-- A call that moves its ticket is logged. -/
lemma Logged.transition (h : Logged w) (body : WorkDb) {ticketId : String}
    {m : WorkDb.Transition} {t : Ticket} {n : EventNote} (hevents : body.events = w.events)
    (houtbox : body.outbox = w.outbox) (hlinks : body.links = w.links)
    (htickets : body.tickets = w.tickets) (ht : w.ticket ticketId = some t)
    (hconcluded : Concluded (body.updateTicket ticketId m.apply) (m.apply t) n w') : Logged w' := by
  have hmoved : (body.updateTicket ticketId m.apply).tickets =
      updateWhere (fun t => t.ticketId = ticketId) m.apply w.tickets := by
    rw [WorkDb.updateTicket, htickets]
  have hid : t.ticketId = ticketId := Table.key_of_row ht
  have hkeys : (updateWhere (fun t => t.ticketId = ticketId) m.apply w.tickets).map
      Ticket.ticketId = w.tickets.map Ticket.ticketId := Table.keys_updateWhere fun _ _ => rfl
  refine h.concluded (body.updateTicket ticketId m.apply) hevents houtbox hlinks
    (by rw [hmoved, hkeys]; exact h.ids) (hmoved ▸ fun t' ht' => ?_)
    (hmoved ▸ fun t₀ ht₀ => ?_) (hmoved ▸ fun t' ht' => ?_)
    (hmoved ▸ Table.mem_updateWhere.mpr ⟨t, Table.mem_of_row ht, if_pos hid⟩) hconcluded
  · obtain ⟨t₀, ht₀, rfl⟩ := Table.mem_updateWhere.mp ht'
    split <;> exact h.named t₀ ht₀
  · refine ⟨_, Table.mem_updateWhere.mpr ⟨t₀, ht₀, rfl⟩, ?_⟩
    split
    · exact ⟨rfl, by simp [WorkDb.Transition.apply]⟩
    · exact ⟨rfl, le_rfl⟩
  · obtain ⟨t₀, ht₀, rfl⟩ := Table.mem_updateWhere.mp ht'
    split
    · next hsame =>
        have : t₀ = t := List.inj_on_of_nodup_map h.ids ht₀ (Table.mem_of_row ht)
          (hsame.trans hid.symm)
        exact .inr ⟨.inr ⟨t₀, ht₀, rfl, rfl⟩, this ▸ rfl⟩
    · exact .inl ⟨t₀, ht₀, rfl, rfl⟩

end Calls

/-- The two ends of the links stay under what is written to the table of tasks. -/
lemma taskKept_ends (ends : List (String × String)) :
    TaskKept fun w => w.links.map TaskLink.ends = ends where
  update w taskId ofStatus set hset h := by
    cases hold : w.lifecycle.task taskId with
    | none => rwa [w.updateTask_of_none hold]
    | some old =>
        obtain ⟨events, rows, hupdate⟩ := w.updateTask_eq hset.taskId hold ofStatus
        rw [hupdate, ← h]
        show List.map TaskLink.ends (if _ then _ else _) = _
        split
        · exact Table.keys_updateWhere fun _ _ => rfl
        · rfl
  insert w new _ _ _ _ h := by
    obtain ⟨events, rows, hinsert⟩ := WorkDb.insertTask_eq w new
    rw [hinsert]
    exact h
  tables _ _ h := h

/-- A new link of a ticket. -/
lemma Logged.linked (h : Logged w) {l : TaskLink} (hnew : l.ends ∉ w.links.map TaskLink.ends)
    {t : Ticket} (ht : w.ticket l.ticketId = some t) :
    Logged { w with links := w.links ++ [l] } where
  ids := h.ids
  named := h.named
  positive := h.positive
  covered := h.covered
  bounded := h.bounded
  published := h.published
  eventIds := h.eventIds
  eventKeys := h.eventKeys
  rows := h.rows
  names e he := by
    cases h.names e he with
    | call hid hkey => exact .call hid hkey
    | task hid hkey => exact .task hid hkey
    | ended hl hstatus hid hkey => exact .ended (List.mem_append_left _ hl) hstatus hid hkey
  links := Table.nodup_append_singleton h.links (Table.row_eq_none_iff.mpr hnew)
  owned l' hl' := by
    rcases List.mem_append.mp hl' with hl' | hl'
    · exact h.owned l' hl'
    · rw [List.mem_singleton.mp hl']
      exact ⟨t, Table.mem_of_row ht, Table.key_of_row ht⟩

section Calls

variable [FloatText] [Digest]

lemma Logged.admitProposal (h : Logged w) {env : WorkEnv} {args v : Value}
    (hok : admitProposal env args w = .ok (w', v)) : Logged w' := by
  obtain ⟨r, -, rfl | ⟨before, body, m, t, n, -, -, hleads, ht, -, hconcluded⟩⟩ :=
    admitProposal_cases hok
  · exact h
  · have hbody : Logged body := by
      cases hleads with
      | @followup task hid hnumber hlink =>
          have hwritten : Logged (writeFollowup env r task w) :=
            taskKept_logged.followup hid hnumber h
          have hends : (writeFollowup env r task w).links.map TaskLink.ends =
              w.links.map TaskLink.ends := (taskKept_ends _).followup hid hnumber rfl
          refine hwritten.linked (fun hmem => ?_) ht
          rw [hends] at hmem
          obtain ⟨l, hl, hsame⟩ := List.mem_map.mp hmem
          exact hlink l hl (Prod.mk.inj hsame)
      | draft hclaim => exact h.of_same rfl rfl rfl rfl
      | again hlink hkey => exact h
      | resolved hlinks hclaims hdrafts => exact h
      | blocked => exact h
    exact hbody.transition body rfl rfl rfl rfl ht hconcluded

lemma Logged.recordDraftReceipt (h : Logged w) {env : WorkEnv} {args v : Value}
    (hok : recordDraftReceipt env args w = .ok (w', v)) : Logged w' := by
  obtain ⟨r, -, ⟨-, rfl⟩ | ⟨claim, t, n, hmeets, -, ⟨-, -, hconcluded⟩ | ⟨-, -, hconcluded⟩⟩⟩ :=
    recordDraftReceipt_cases hok
  · exact h
  · exact h.concluded (w.supersedeClaim r.claimId) rfl rfl rfl h.ids h.named
      (fun t ht => ⟨t, ht, rfl, le_rfl⟩) (fun t ht => .inl ⟨t, ht, rfl, rfl⟩)
      (Table.mem_of_row hmeets.ticket) hconcluded
  · have hbody : Logged (r.received (env.now 0) w) := by
      rw [received_eq]
      exact h.of_same rfl rfl rfl rfl
    refine hbody.transition _ rfl rfl rfl rfl ?_ hconcluded
    rw [received_eq]
    exact hmeets.ticket

lemma Logged.reconcileDraft (h : Logged w) {env : WorkEnv} {args v : Value}
    (hok : reconcileDraft env args w = .ok (w', v)) : Logged w' := by
  obtain ⟨r, -, ⟨-, rfl⟩ | ⟨-, t, n, ht, -, hconcluded⟩⟩ := reconcileDraft_cases hok
  · exact h
  · have hbody : Logged (r.dispose (env.now 0) w) := by
      rw [dispose_eq]
      exact h.of_same rfl rfl rfl rfl
    refine hbody.transition _ rfl rfl rfl rfl ?_ hconcluded
    rw [dispose_eq]
    exact ht

/-- A ticket that is opened has its first event. -/
lemma Logged.opened (h : Logged w) (body : WorkDb) {summary now : String} {n : EventNote}
    (hfree : ∀ t ∈ w.tickets, t.ticketId ≠ (newTicket w.nextTicket summary now).ticketId)
    (hevents : body.events = w.events) (houtbox : body.outbox = w.outbox)
    (hlinks : body.links = w.links)
    (htickets : body.tickets = w.tickets ++ [newTicket w.nextTicket summary now])
    (hconcluded : Concluded body (newTicket w.nextTicket summary now) n w') : Logged w' := by
  refine h.concluded body hevents houtbox hlinks (htickets ▸ ?_) (htickets ▸ fun t' ht' => ?_)
    (htickets ▸ fun t₀ ht₀ => ⟨t₀, List.mem_append_left _ ht₀, rfl, le_rfl⟩)
    (htickets ▸ fun t' ht' => ?_)
    (htickets ▸ List.mem_append_right _ (List.mem_singleton_self _)) hconcluded
  · refine Table.nodup_append_singleton h.ids (Table.row_eq_none_iff.mpr fun hmem => ?_)
    obtain ⟨t, ht, hid⟩ := List.mem_map.mp hmem
    exact hfree t ht hid
  · rcases List.mem_append.mp ht' with ht' | ht'
    · exact h.named t' ht'
    · rw [List.mem_singleton.mp ht']
      rfl
  · rcases List.mem_append.mp ht' with ht' | ht'
    · exact .inl ⟨t', ht', rfl, rfl⟩
    · rw [List.mem_singleton.mp ht']
      exact .inr ⟨.inl rfl, rfl⟩

lemma Logged.admitSource (h : Logged w) {env : WorkEnv} {args v : Value}
    (hok : admitSource env args w = .ok (w', v)) : Logged w' := by
  obtain ⟨r, -, hquiet | ⟨-, -, hassociate⟩⟩ := admitSource_cases hok
  · exact h.quiet hquiet
  · obtain ⟨w₁, found, rows, ticket, hfound, -, -, -, -, hticket, hconcluded, -⟩ :=
      associate_ok hassociate
    rcases ticketFor_ok hfound with ⟨-, rfl, hfree, rfl⟩ | ⟨t, -, ht, rfl, rfl⟩
    · have hnone : w.ticket (newTicket w.nextTicket r.summary (env.now 0)).ticketId = none := by
        refine Table.row_eq_none_iff.mpr fun hmem => ?_
        obtain ⟨t, ht, hid⟩ := List.mem_map.mp hmem
        exact (hfree t ht).1 hid
      have hrow : some ticket = some (newTicket w.nextTicket r.summary (env.now 0)) := by
        rw [← hticket, WorkDb.ticket, Table.row_append, ← WorkDb.ticket, hnone, Option.none_or,
          Table.row_singleton, if_pos rfl]
      obtain rfl := Option.some.inj hrow
      refine h.opened _ (fun t ht => (hfree t ht).1) ?_ ?_ ?_ ?_ hconcluded <;> rfl
    · have hrow : some ticket = some ((WorkDb.reactivation r.summary (env.now 0)).apply t) := by
        rw [← hticket, ticket_moved]
        show Option.map _ (w.ticket t.ticketId) = _
        rw [ht, Option.map_some, if_pos rfl]
      obtain rfl := Option.some.inj hrow
      exact h.transition { w with
        sources := w.sources ++ [r.source t.ticketId (env.now 0)]
        keys := w.keys ++ rows } rfl rfl rfl rfl ht hconcluded

/-- **Every call on tickets is logged.** -/
theorem Logged.apply (h : Logged w) (call : TicketCall) : Logged (call.apply w) := by
  unfold TicketCall.apply
  cases htransact : call.transact w with
  | error e => exact h
  | ok behind =>
      obtain ⟨w', v⟩ := behind
      cases call with
      | admitSource env args => exact h.admitSource htransact
      | admitProposal env args => exact h.admitProposal htransact
      | recordDraftReceipt env args => exact h.recordDraftReceipt htransact
      | reconcileDraft env args => exact h.reconcileDraft htransact
      | processingContext env args => exact h.quiet (quiet_of_idle htransact trivial)
      | outboxRegister args => exact h.quiet (quiet_of_idle htransact trivial)
      | outboxAck env args => exact h.quiet (quiet_of_idle htransact trivial)
      | outboxCompact env isTime args => exact h.quiet (quiet_of_idle htransact trivial)

end Calls

/-! ### The whole log -/

section Runs

variable [FloatText] [TouchClock] [Digest]

/-- **The log of events is complete** in every database that any run of calls leaves: the events
of a ticket are of exactly its revisions, each of them has its row of the outbox, and what fails
changes nothing. -/
theorem event_log_complete (db : Db) (acts : List Servers.Act) :
    let behind := (run Servers.act (.idle { lifecycle := db }) acts).state
    (∀ t ∈ behind.tickets, ∀ n,
        (∃ e ∈ behind.events, e.Tells t.ticketId n) ↔ 1 ≤ n ∧ n ≤ t.revision) ∧
      (∀ e ∈ behind.events, e.aggregateKind = .ticket → ∃ o ∈ behind.outbox,
        o.eventId = e.eventId ∧ (o.compactedAt = none → o.payload = e.payload)) ∧
      (∀ call e, TicketCall.transact call behind = .error e → call.apply behind = behind) ∧
      ∀ st e, TaskLifecycle.Statement.exec st behind.lifecycle = .error e →
        work st behind = behind := by
  intro behind
  have hstart : Logged (Servers.idle { lifecycle := db }).state := logged_empty db
  have hlogged : Logged behind :=
    taskKept_logged.run (fun call _ h => h.apply call) hstart acts
  refine ⟨fun t ht n => ⟨?_, fun hn => hlogged.covered t ht n hn.1 hn.2⟩, hlogged.published,
    fun call e hfails => ?_, fun st e hfails => ?_⟩
  · rintro ⟨e, he, hkind, hid, rfl⟩
    obtain ⟨t', ht', hid', hpositive, hle⟩ := hlogged.bounded e he hkind
    obtain rfl : t' = t := List.inj_on_of_nodup_map hlogged.ids ht' ht (hid'.trans hid)
    exact ⟨hpositive, hle⟩
  · rw [TicketCall.apply, hfails]
  · rw [work, hfails]

end Runs

/-- A claim of the first task whose file cannot be written. -/
def unwritableClaim : TaskLifecycle.Call where
  surface := .work
  tool := .claim
    { TaskLifecycle.orderlyEnv "1" with
      project := fun _ => .error "Permission denied (os error 13)" }
  args := .object [("task_number", .ofInt 1), ("expected_revision", .ofInt 1),
    ("agent_id", .string "alice")]

/-- A call on a task that fails behind what it has committed keeps it. -/
theorem err_after_commit :
    letI := FloatText.fields
    letI : TouchClock := ⟨fun _ _ => "2026-01-01T00:00:00Z"⟩
    letI : Digest := ⟨id⟩
    ¬ ∀ (db : Db) (call : TaskLifecycle.Call) (e : String),
      ((Servers.program call).alone work { lifecycle := db }).1 = .error e →
        ((Servers.program call).alone work { lifecycle := db }).2.events = [] := by
  let _ : FloatText := FloatText.fields
  let _ : TouchClock := ⟨fun _ _ => "2026-01-01T00:00:00Z"⟩
  let _ : Digest := ⟨id⟩
  intro h
  have hfails : ((Servers.program unwritableClaim).alone work
      { lifecycle := { tasks := [TaskLifecycle.createdTask "task-1" 1], lastAllocated := 1 } }).1 =
      .error "Permission denied (os error 13)" := by
    rfl
  have hevents := h _ _ _ hfails
  have hsome : ((Servers.program unwritableClaim).alone work
      { lifecycle := { tasks := [TaskLifecycle.createdTask "task-1" 1],
                       lastAllocated := 1 } }).2.events.isEmpty = false := by
    decide +kernel
  rw [hevents] at hsome
  cases hsome

end WorkLifecycle

end McpSurfaces
