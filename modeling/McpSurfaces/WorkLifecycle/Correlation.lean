import McpSurfaces.WorkLifecycle.Steps

/-!
How sources come to tickets, whatever calls are made in whatever order.

* `Shape`: the sources, the correlation keys and the numbers of tickets. **`shape_act`**: only
  admissions of sources change them.
* `Grouped`: every key that a source was admitted with belongs to the ticket of the source.
* **`sources_partitioned`**: sources that share a key are sources of one ticket, in every run.
-/

namespace McpSurfaces

namespace WorkLifecycle

open EventLedger (Digest)
open TaskLifecycle (Db TaskRow)
open Calls (run Each)

section Correlation

variable [FloatText] [TouchClock] [Digest]

/-! ### What only admissions change -/

/-- What admissions of sources work on. -/
structure Shape where
  sources : List Source
  keys : List KeyRow
  nextTicket : ℤ
  numbers : List ℤ

omit [FloatText] [TouchClock] [Digest] in
/-- The shape of a database. -/
def WorkDb.shape (w : WorkDb) : Shape where
  sources := w.sources
  keys := w.keys
  nextTicket := w.nextTicket
  numbers := w.tickets.map Ticket.number

section

variable {w w' : WorkDb}

section

omit [FloatText] [TouchClock] [Digest]

lemma Quiet.shape (h : Quiet w w') : w'.shape = w.shape := by
  rw [WorkDb.shape, WorkDb.shape, h.sources, h.keys, h.nextTicket, h.tickets]

lemma shape_updateTicket (m : WorkDb.Transition) (ticketId : String) (w : WorkDb) :
    (w.updateTicket ticketId m.apply).shape = w.shape := by
  have hnumbers : (w.updateTicket ticketId m.apply).tickets.map Ticket.number =
      w.tickets.map Ticket.number := Table.keys_updateWhere fun _ _ => rfl
  rw [WorkDb.shape, hnumbers]
  rfl

end

omit [TouchClock] in
lemma Concluded.shape {t : Ticket} {n : EventNote} (h : Concluded w t n w') :
    w'.shape = w.shape := by
  obtain ⟨o, -, rfl⟩ := h.behind
  rfl

omit [FloatText] [TouchClock] [Digest] in
/-- Writes to the table of tasks leave the shape. -/
lemma taskKept_shape (x : Shape) : TaskKept fun w => w.shape = x where
  update w taskId ofStatus set hset h := by
    have hframed : Framed w (w.updateTask taskId ofStatus set) :=
      w.framed_updateTask hset.taskId ofStatus
    have hnumbers : (w.updateTask taskId ofStatus set).tickets.map Ticket.number =
        w.tickets.map Ticket.number :=
      w.keys_tickets_updateTask hset.taskId (fun _ _ => rfl) ofStatus
    rw [WorkDb.shape, hframed.sources, hframed.keys, hframed.nextTicket, hnumbers]
    exact h
  insert w new _ _ _ _ h := by
    obtain ⟨events, rows, hinsert⟩ := WorkDb.insertTask_eq w new
    rw [hinsert]
    exact h
  tables _ _ h := h

section

omit [TouchClock]

lemma shape_admitProposal {env : WorkEnv} {args v : Value}
    (h : admitProposal env args w = .ok (w', v)) : w'.shape = w.shape := by
  obtain ⟨r, -, rfl | ⟨before, body, m, t, n, -, -, hleads, -, -, hconcluded⟩⟩ :=
    admitProposal_cases h
  · rfl
  · rw [hconcluded.shape, shape_updateTicket]
    cases hleads with
    | followup hid hnumber hlink => exact (taskKept_shape w.shape).followup hid hnumber rfl
    | again => rfl
    | draft => rfl
    | resolved => rfl
    | blocked => rfl

lemma shape_recordDraftReceipt {env : WorkEnv} {args v : Value}
    (h : recordDraftReceipt env args w = .ok (w', v)) : w'.shape = w.shape := by
  obtain ⟨r, -, ⟨-, rfl⟩ | ⟨claim, t, n, -, -, ⟨-, -, hconcluded⟩ | ⟨-, -, hconcluded⟩⟩⟩ :=
    recordDraftReceipt_cases h
  · rfl
  · exact hconcluded.shape
  · rw [hconcluded.shape, shape_updateTicket, received_eq]
    rfl

lemma shape_reconcileDraft {env : WorkEnv} {args v : Value}
    (h : reconcileDraft env args w = .ok (w', v)) : w'.shape = w.shape := by
  obtain ⟨r, -, ⟨-, rfl⟩ | ⟨-, t, n, -, -, hconcluded⟩⟩ := reconcileDraft_cases h
  · rfl
  · rw [hconcluded.shape, shape_updateTicket, dispose_eq]
    rfl

lemma shape_apply {call : TicketCall} (hcall : ∀ env args, call ≠ .admitSource env args) :
    (call.apply w).shape = w.shape := by
  unfold TicketCall.apply
  cases htransact : call.transact w with
  | error e => rfl
  | ok behind =>
      obtain ⟨w', v⟩ := behind
      cases call with
      | admitSource env args => exact absurd rfl (hcall env args)
      | admitProposal env args => exact shape_admitProposal htransact
      | recordDraftReceipt env args => exact shape_recordDraftReceipt htransact
      | reconcileDraft env args => exact shape_reconcileDraft htransact
      | processingContext env args => exact (quiet_of_idle htransact trivial).shape
      | outboxRegister args => exact (quiet_of_idle htransact trivial).shape
      | outboxAck env args => exact (quiet_of_idle htransact trivial).shape
      | outboxCompact env isTime args => exact (quiet_of_idle htransact trivial).shape

end

/-- **Only admissions of sources** change the sources, the keys and the numbers of tickets. -/
theorem shape_act {c : Servers} {a : Servers.Act}
    (ha : ∀ env args, a ≠ .edit (.ticket (.admitSource env args))) :
    (c.act a).state.shape = c.state.shape :=
  (taskKept_shape c.state.shape).act (fun call hcall => shape_apply fun env args heq =>
    ha env args (by rw [hcall, heq])) rfl

end

/-! ### The keys of sources -/

/-- A source that was admitted, with the keys of its call. -/
structure Admitted where
  source : Source
  keys : List CorrelationKey

/-- The sources that an act admits. -/
def Servers.admitted (c : Servers) (a : Servers.Act) : List Admitted :=
  match a with
  | .edit (.ticket (.admitSource _ args)) =>
      match sourceRequest args with
      | .ok r =>
          ((c.act a).state.sources.drop c.state.sources.length).map fun source =>
            { source, keys := r.keys }
      | .error _ => []
  | _ => []

/-- The sources that a run admits. -/
def Servers.admissions (c : Servers) : List Servers.Act → List Admitted
  | [] => []
  | a :: rest => c.admitted a ++ (c.act a).admissions rest

/-- The sources and the keys of a database, of which so many sources have been admitted. -/
structure Grouped (before : List Admitted) (w : WorkDb) : Prop where
  sources : w.sources = before.map Admitted.source
  names : (w.sources.map Source.name).Nodup
  keys : (w.keys.map KeyRow.key).Nodup
  owned : ∀ x ∈ before, ∀ key ∈ x.keys, w.correlated key = some x.source.ticketId
  next : w.nextTicket = w.tickets.length + 1
  numbers : w.tickets.map Ticket.number =
    (List.range w.tickets.length).map fun i : ℕ => (i : ℤ) + 1

section

variable {w w' : WorkDb} {before : List Admitted}

section

omit [FloatText] [TouchClock] [Digest]

lemma grouped_of_shape (h : w'.shape = w.shape) (hw : Grouped before w) : Grouped before w' := by
  obtain ⟨hsources, hkeys, hnext, hnumbers⟩ := Shape.mk.inj h
  have hlength : w'.tickets.length = w.tickets.length := by
    simpa using congrArg List.length hnumbers
  refine ⟨hsources ▸ hw.sources, hsources ▸ hw.names, hkeys ▸ hw.keys, fun x hx key hkey => ?_,
    by rw [hnext, hw.next, hlength], by rw [hnumbers, hw.numbers, hlength]⟩
  rw [WorkDb.correlated, hkeys]
  exact hw.owned x hx key hkey

/-- Two admissions that share a key are of one ticket. -/
lemma Grouped.same_ticket (h : Grouped before w) {x y : Admitted} (hx : x ∈ before)
    (hy : y ∈ before) {key : CorrelationKey} (hkx : key ∈ x.keys) (hky : key ∈ y.keys) :
    x.source.ticketId = y.source.ticketId :=
  Option.some.inj ((h.owned x hx key hkx).symm.trans (h.owned y hy key hky))

end

omit [TouchClock] in
/-- An admission of a source that is new. -/
lemma grouped_associate {env : WorkEnv} {r : SourceRequest} {candidates : List String} {v : Value}
    (h : associate env r candidates w = .ok (w', v)) (hw : Grouped before w) :
    ∃ source, w'.sources = w.sources ++ [source] ∧
      Grouped (before ++ [{ source, keys := r.keys }]) w' := by
  obtain ⟨w₁, found, rows, ticket, hfound, hnew, hrows, hnodup, hall, -, hconcluded, -⟩ :=
    associate_ok h
  obtain ⟨o, -, hbehind⟩ := hconcluded.behind
  have hbase : w₁.sources = w.sources ∧ w₁.keys = w.keys ∧
      w₁.nextTicket = w₁.tickets.length + 1 ∧
      w₁.tickets.map Ticket.number =
        (List.range w₁.tickets.length).map fun i : ℕ => (i : ℤ) + 1 := by
    rcases ticketFor_ok hfound with ⟨-, hticket, -, rfl⟩ | ⟨t, -, -, -, rfl⟩
    · refine ⟨rfl, rfl, ?_, ?_⟩
      · simp [hw.next]
      · rw [List.map_append, hw.numbers, List.length_append, List.length_singleton,
          List.range_succ, List.map_append, List.map_singleton, List.map_singleton, hticket]
        simp [newTicket, hw.next]
    · have hnumbers : (w.updateTicket t.ticketId
          (WorkDb.reactivation r.summary (env.now 0)).apply).tickets.map Ticket.number =
          w.tickets.map Ticket.number := Table.keys_updateWhere fun _ _ => rfl
      have hlength := congrArg List.length hnumbers
      rw [List.length_map, List.length_map] at hlength
      exact ⟨rfl, rfl, by rw [hlength]; exact hw.next, by rw [hnumbers, hlength]; exact hw.numbers⟩
  obtain ⟨hsources, hkeys, hnext, hnumbers⟩ := hbase
  rw [hsources] at hnew
  rw [hkeys] at hnodup
  refine ⟨r.source found.ticketId (env.now 0), by rw [hbehind, ← hsources], ?_, ?_, ?_, ?_, ?_, ?_⟩
  · rw [hbehind, List.map_append, ← hw.sources, ← hsources]
    rfl
  · have hfree : Table.row Source.name w.sources r.name = none := by
      rw [Table.row_eq_none_iff, List.mem_map]
      rintro ⟨s, hs, hname⟩
      exact hnew s hs hname
    have hnames := Table.nodup_append_singleton
      (r := r.source found.ticketId (env.now 0)) hw.names hfree
    rw [hbehind]
    show ((w₁.sources ++ [_]).map Source.name).Nodup
    rwa [hsources]
  · rw [hbehind]
    show ((w₁.keys ++ rows).map KeyRow.key).Nodup
    rw [hkeys]
    exact hnodup hw.keys
  · intro x hx key hkey
    rw [hbehind]
    show WorkDb.correlated { w₁ with keys := w₁.keys ++ rows } key = _
    rcases List.mem_append.mp hx with hx | hx
    · refine correlated_append ?_
      rw [WorkDb.correlated, hkeys]
      exact hw.owned x hx key hkey
    · obtain rfl := List.mem_singleton.mp hx
      exact hall key hkey
  · rw [hbehind]
    exact hnext
  · rw [hbehind]
    exact hnumbers

/-- An act keeps the sources grouped. -/
lemma grouped_act {c : Servers} {a : Servers.Act} (h : Grouped before c.state) :
    Grouped (before ++ c.admitted a) (c.act a).state := by
  by_cases ha : ∃ env args, a = .edit (.ticket (.admitSource env args))
  · obtain ⟨env, args, rfl⟩ := ha
    have hstate : (c.act (.edit (.ticket (.admitSource env args)))).state =
        (TicketCall.admitSource env args).apply c.state := rfl
    cases htransact : admitSource env args c.state with
    | error e =>
        have hkept : (c.act (.edit (.ticket (.admitSource env args)))).state = c.state := by
          simp only [hstate, TicketCall.apply, TicketCall.transact, htransact]
        have hnone : c.admitted (.edit (.ticket (.admitSource env args))) = [] := by
          simp only [Servers.admitted, hkept, List.drop_length, List.map_nil]
          split <;> rfl
        rw [hnone, hkept, List.append_nil]
        exact h
    | ok behind =>
        obtain ⟨w', v⟩ := behind
        have hbehind : (c.act (.edit (.ticket (.admitSource env args)))).state = w' := by
          simp only [hstate, TicketCall.apply, TicketCall.transact, htransact]
        obtain ⟨r, hr, hquiet | ⟨-, -, hassociate⟩⟩ := admitSource_cases htransact
        · have hnone : c.admitted (.edit (.ticket (.admitSource env args))) = [] := by
            simp only [Servers.admitted, hbehind, hr, hquiet.sources, List.drop_length,
              List.map_nil]
          rw [hnone, hbehind, List.append_nil]
          exact grouped_of_shape hquiet.shape h
        · obtain ⟨source, hsources, hgrouped⟩ := grouped_associate hassociate h
          have hone : c.admitted (.edit (.ticket (.admitSource env args))) =
              [{ source, keys := r.keys }] := by
            simp only [Servers.admitted, hbehind, hr, hsources, List.drop_left, List.map_singleton]
          rw [hone, hbehind]
          exact hgrouped
  · have hnone : c.admitted a = [] := by
      unfold Servers.admitted
      split
      · next env args => exact absurd ⟨env, args, rfl⟩ ha
      · rfl
    rw [hnone, List.append_nil]
    exact grouped_of_shape (shape_act fun env args heq => ha ⟨env, args, heq⟩) h

lemma grouped_run {c : Servers} (acts : List Servers.Act) (h : Grouped before c.state) :
    Grouped (before ++ c.admissions acts) (run Servers.act c acts).state := by
  induction acts generalizing c before with
  | nil =>
      rw [Servers.admissions, List.append_nil]
      exact h
  | cons a rest ih =>
      rw [Servers.admissions, ← List.append_assoc]
      exact ih (grouped_act h)

/-! ### Calls that admit nothing -/

omit [TouchClock] in
/-- A call that is refused, blocked, or answered for a source that is known. -/
def TurnedAway (answer : Except String (WorkDb × Value)) : Prop :=
  ∀ behind v, answer = .ok (behind, v) →
    answerStatus v = some (.string "blocked") ∨ answerStatus v = some (.string "already_associated")

omit [FloatText] [TouchClock] [Digest] in
lemma answerStatus_sourceAnswer (operationKey status receiptId : String)
    (ticketId number revision sourceId : Value) (more : Map) :
    answerStatus (workDomain operationKey
      (sourceAnswer status ticketId number revision sourceId receiptId more)) =
      some (.string status) := rfl

omit [TouchClock] in
/-- Such a call changes no ticket, no source and no key. -/
lemma unchanged_of_turnedAway {env : WorkEnv} {args : Value}
    (h : TurnedAway (admitSource env args w)) :
    ((TicketCall.admitSource env args).apply w).tickets = w.tickets ∧
      ((TicketCall.admitSource env args).apply w).sources = w.sources ∧
      ((TicketCall.admitSource env args).apply w).keys = w.keys := by
  cases htransact : admitSource env args w with
  | error e =>
      have hkept : (TicketCall.admitSource env args).apply w = w := by
        simp only [TicketCall.apply, TicketCall.transact, htransact]
      rw [hkept]
      exact ⟨rfl, rfl, rfl⟩
  | ok behind =>
      obtain ⟨w', v⟩ := behind
      have hbehind : (TicketCall.admitSource env args).apply w = w' := by
        simp only [TicketCall.apply, TicketCall.transact, htransact]
      rw [hbehind]
      obtain ⟨r, -, hquiet | ⟨-, -, hassociate⟩⟩ := admitSource_cases htransact
      · exact ⟨hquiet.tickets, hquiet.sources, hquiet.keys⟩
      · obtain ⟨w₁, found, rows, ticket, -, -, -, -, -, -, -, eventId, revision, rfl⟩ :=
          associate_ok hassociate
        have hstatus := h w' _ htransact
        rw [answerStatus_sourceAnswer] at hstatus
        cases hempty : (w.candidates r.keys).isEmpty <;> simp [hempty] at hstatus

end

/-- **Sources are partitioned** by the keys that they share, in every database that any run of calls
leaves: a source has one row at most, sources whose calls shared a key have one ticket, the tickets
are numbered from one on, and a call that admits nothing changes none of it. -/
theorem sources_partitioned (db : Db) (acts : List Servers.Act) :
    let behind := (run Servers.act (.idle { lifecycle := db }) acts).state
    let admissions := Servers.admissions (.idle { lifecycle := db }) acts
    (behind.sources.map Source.name).Nodup ∧
      behind.sources = admissions.map Admitted.source ∧
      (∀ x ∈ admissions, ∀ y ∈ admissions, (∃ key ∈ x.keys, key ∈ y.keys) →
        x.source.ticketId = y.source.ticketId) ∧
      behind.tickets.map Ticket.number =
        (List.range behind.tickets.length).map (fun i : ℕ => (i : ℤ) + 1) ∧
      ∀ env args, TurnedAway (admitSource env args behind) →
        ((TicketCall.admitSource env args).apply behind).tickets = behind.tickets ∧
          ((TicketCall.admitSource env args).apply behind).sources = behind.sources ∧
          ((TicketCall.admitSource env args).apply behind).keys = behind.keys := by
  intro behind admissions
  have hstart : Grouped [] (Servers.idle { lifecycle := db }).state :=
    ⟨rfl, List.nodup_nil, List.nodup_nil, nofun, rfl, rfl⟩
  have hgrouped : Grouped admissions behind := grouped_run acts hstart
  exact ⟨hgrouped.names, hgrouped.sources,
    fun x hx y hy ⟨key, hkx, hky⟩ => hgrouped.same_ticket hx hy hkx hky, hgrouped.numbers,
    fun env args => unchanged_of_turnedAway⟩

end Correlation

end WorkLifecycle

end McpSurfaces
