import McpSurfaces.WorkLifecycle.Statements

/-!
What each call on tickets does, where it goes through.

* `Quiet`: no ticket changes, nor anything that belongs to one.
* `Concluded`: the end of every call that changes a ticket: its event, its row of the outbox and
  its stored result.
* `admitSource_cases`, `admitProposal_cases`, `recordDraftReceipt_cases`, `reconcileDraft_cases`:
  what a call does before that. **`quiet_of_idle`**: the other calls are quiet.
-/

namespace McpSurfaces

namespace WorkLifecycle

open EventLedger (Digest)
open TaskLifecycle (sqliteError)
open Table (row updateWhere)

/-! ### The steps that calls share -/

/-- A row of the outbox without its payload. -/
def OutboxRow.compacted (now : String) (o : OutboxRow) : OutboxRow :=
  { o with payload := .object [], compactedAt := some now }

/-- A call that changes no ticket, nor what belongs to one: results of calls may be stored, and
rows of the outbox compacted. -/
structure Quiet (w w' : WorkDb) : Prop where
  lifecycle : w'.lifecycle = w.lifecycle
  tickets : w'.tickets = w.tickets
  sources : w'.sources = w.sources
  keys : w'.keys = w.keys
  links : w'.links = w.links
  claims : w'.claims = w.claims
  drafts : w'.drafts = w.drafts
  events : w'.events = w.events
  nextTicket : w'.nextTicket = w.nextTicket
  operations : ∃ new, w'.operations = w.operations ++ new
  outbox : ∃ (due : OutboxRow → Bool) (now : String),
    w'.outbox = updateWhere (fun o => due o = true) (OutboxRow.compacted now) w.outbox

lemma updateWhere_false (rows : List OutboxRow) (now : String) :
    updateWhere (fun _ => false = true) (OutboxRow.compacted now) rows = rows := by
  simp [updateWhere]

lemma Quiet.refl (w : WorkDb) : Quiet w w :=
  ⟨rfl, rfl, rfl, rfl, rfl, rfl, rfl, rfl, rfl, ⟨[], by simp⟩, fun _ => false, "",
    (updateWhere_false _ _).symm⟩

lemma Quiet.operation (w : WorkDb) (o : WorkOperation) :
    Quiet w { w with operations := w.operations ++ [o] } :=
  ⟨rfl, rfl, rfl, rfl, rfl, rfl, rfl, rfl, rfl, ⟨[o], rfl⟩, fun _ => false, "",
    (updateWhere_false _ _).symm⟩

section Shared

variable [FloatText] {w w' : WorkDb}

omit [FloatText] in
lemma existingOperation_cases {key digest : String} {stored : Option Value}
    (h : w.existingOperation key digest = .ok stored) :
    (stored = none ∧ w.operation key = none) ∨
      ∃ o, w.operation key = some o ∧ stored = some o.result := by
  unfold WorkDb.existingOperation at h
  cases hoperation : w.operation key with
  | none =>
      rw [hoperation] at h
      cases h
      exact .inl ⟨rfl, rfl⟩
  | some o =>
      simp only [hoperation] at h
      split at h
      · cases h
      · cases h
        exact .inr ⟨o, rfl, rfl⟩

lemma recordOperation_ok {o : WorkOperation} (h : w.recordOperation o = .ok w') :
    w.operation o.operationKey = none ∧ w' = { w with operations := w.operations ++ [o] } := by
  unfold WorkDb.recordOperation at h
  obtain ⟨-, h⟩ := guard_ok h
  obtain ⟨hnone, h⟩ := guard_ok h
  cases h
  exact ⟨by simpa using hnone, rfl⟩

section

omit [FloatText]

lemma workTicket_ok {ticketId : String} {t : Ticket} (h : w.workTicket ticketId = .ok t) :
    w.ticket ticketId = some t := by
  unfold WorkDb.workTicket at h
  cases hticket : w.ticket ticketId with
  | none =>
      rw [hticket] at h
      cases h
  | some ticket =>
      rw [hticket] at h
      cases h
      rfl

/-- The tickets behind a transition. -/
lemma ticket_moved (m : WorkDb.Transition) (ticketId id : String) :
    (w.updateTicket ticketId m.apply).ticket id =
      (w.ticket id).map fun t => if t.ticketId = ticketId then m.apply t else t := by
  have hset : ∀ t : Ticket, t.ticketId = ticketId → (m.apply t).ticketId = t.ticketId :=
    fun _ _ => rfl
  exact Table.row_updateWhere hset id

lemma workTransition_ok {ticketId : String} {m : WorkDb.Transition} {t' : Ticket}
    (h : w.workTransition ticketId m = .ok (w', t')) :
    ∃ t, w.ticket ticketId = some t ∧ w' = w.updateTicket ticketId m.apply ∧ t' = m.apply t := by
  unfold WorkDb.workTransition at h
  obtain ⟨t, ht, h⟩ := Lists.bind_eq_ok h
  obtain ⟨moved, hmoved, h⟩ := Lists.bind_eq_ok h
  cases h
  have ht := workTicket_ok ht
  refine ⟨t, ht, rfl, ?_⟩
  have hrow := workTicket_ok hmoved
  rw [ticket_moved, ht, Option.map_some, if_pos (Table.key_of_row ht)] at hrow
  exact (Option.some.inj hrow).symm

end

variable [Digest]

lemma workEvent_ok {t : Ticket} {n : EventNote} {eventId : String}
    (h : w.workEvent t n = .ok (w', eventId)) :
    ¬ w.EventTaken (n.event t) ∧ ¬ w.OutboxTaken (n.outbox t) ∧
      w' = { w with events := w.events ++ [n.event t], outbox := w.outbox ++ [n.outbox t] } := by
  unfold WorkDb.workEvent at h
  obtain ⟨-, h⟩ := guard_ok h
  obtain ⟨hevent, h⟩ := guard_ok h
  obtain ⟨houtbox, h⟩ := guard_ok h
  cases h
  exact ⟨hevent, houtbox, rfl⟩

/-- The end of a call that changes a ticket. -/
structure Concluded (w : WorkDb) (t : Ticket) (n : EventNote) (w' : WorkDb) : Prop where
  event : ¬ w.EventTaken (n.event t)
  outbox : ¬ w.OutboxTaken (n.outbox t)
  unrecorded : w.operation n.operationKey = none
  behind : ∃ o : WorkOperation, o.operationKey = n.operationKey ∧ w' = { w with
    events := w.events ++ [n.event t]
    outbox := w.outbox ++ [n.outbox t]
    operations := w.operations ++ [o] }

lemma concluded {t : Ticket} {n : EventNote} {eventId : String} {w₁ : WorkDb} {o : WorkOperation}
    (hevent : w.workEvent t n = .ok (w₁, eventId)) (hoperation : w₁.recordOperation o = .ok w')
    (hkey : o.operationKey = n.operationKey) : Concluded w t n w' := by
  obtain ⟨htaken, hrow, rfl⟩ := workEvent_ok hevent
  obtain ⟨hnone, rfl⟩ := recordOperation_ok hoperation
  exact ⟨htaken, hrow, hkey ▸ hnone, o, hkey, rfl⟩

/-- The event and the answer of a call can be written. -/
structure WorkDb.Writable (w : WorkDb) (t : Ticket) (n : EventNote) (answer : String → Value) :
    Prop where
  payload : ¬ 16384 < (n.payload t).bytes
  event : ¬ w.EventTaken (n.event t)
  outbox : ¬ w.OutboxTaken (n.outbox t)
  answer : ¬ 32768 < (answer (n.eventId t)).bytes

lemma writable_of_ok {t : Ticket} {n : EventNote} {eventId : String} {w₁ : WorkDb}
    {o : WorkOperation} (answer : String → Value) (hevent : w.workEvent t n = .ok (w₁, eventId))
    (hoperation : w₁.recordOperation o = .ok w') (hanswer : o.result = answer eventId) :
    w.Writable t n answer := by
  unfold WorkDb.workEvent at hevent
  obtain ⟨hpayload, hevent⟩ := guard_ok hevent
  obtain ⟨htaken, hevent⟩ := guard_ok hevent
  obtain ⟨hrow, hevent⟩ := guard_ok hevent
  cases hevent
  unfold WorkDb.recordOperation at hoperation
  obtain ⟨hresult, -⟩ := guard_ok hoperation
  exact ⟨hpayload, htaken, hrow, hanswer ▸ hresult⟩

lemma WorkDb.Writable.of_same {t : Ticket} {n : EventNote} {answer : String → Value}
    (h : w.Writable t n answer) (hevents : w'.events = w.events) (houtbox : w'.outbox = w.outbox) :
    w'.Writable t n answer where
  payload := h.payload
  event := by
    rw [WorkDb.EventTaken, hevents]
    exact h.event
  outbox := by
    rw [WorkDb.OutboxTaken, houtbox]
    exact h.outbox
  answer := h.answer

/-- An event that can be written. -/
lemma WorkDb.Writable.workEvent {t : Ticket} {n : EventNote} {answer : String → Value}
    (h : w.Writable t n answer) :
    w.workEvent t n = .ok ({ w with
      events := w.events ++ [n.event t]
      outbox := w.outbox ++ [n.outbox t] }, n.eventId t) := by
  rw [WorkDb.workEvent, if_neg h.payload, if_neg h.event, if_neg h.outbox]
  rfl

omit [Digest] in
/-- An answer that can be stored. -/
lemma recordOperation_of_small {o : WorkOperation} (hresult : ¬ 32768 < o.result.bytes)
    (hnone : w.operation o.operationKey = none) :
    w.recordOperation o = .ok { w with operations := w.operations ++ [o] } := by
  have hfree : ¬ (w.operation o.operationKey).isSome = true := by
    rw [hnone]
    nofun
  rw [WorkDb.recordOperation, if_neg hresult]
  exact if_neg hfree

section

omit [FloatText] [Digest]

lemma existingOperation_of_none {key digest : String} (h : w.operation key = none) :
    w.existingOperation key digest = .ok none := by
  rw [WorkDb.existingOperation, h]

lemma workTicket_of_some {ticketId : String} {t : Ticket} (h : w.ticket ticketId = some t) :
    w.workTicket ticketId = .ok t := by
  rw [WorkDb.workTicket, h]

lemma workTransition_of_some {ticketId : String} {t : Ticket} (m : WorkDb.Transition)
    (h : w.ticket ticketId = some t) :
    w.workTransition ticketId m = .ok (w.updateTicket ticketId m.apply, m.apply t) := by
  have hmoved : (w.updateTicket ticketId m.apply).ticket ticketId = some (m.apply t) := by
    rw [ticket_moved, h, Option.map_some, if_pos (Table.key_of_row h)]
  rw [WorkDb.workTransition, bind_of_ok (workTicket_of_some h), bind_of_ok
    (workTicket_of_some hmoved)]
  rfl

end

end Shared

/-! ### Sources -/

section Sources

variable [FloatText] {w w' : WorkDb}

section

omit [FloatText]

lemma correlated_append {rows : List KeyRow} {key : CorrelationKey} {ticketId : String}
    (h : w.correlated key = some ticketId) :
    WorkDb.correlated { w with keys := w.keys ++ rows } key = some ticketId := by
  obtain ⟨old, hold, rfl⟩ := Option.map_eq_some_iff.mp h
  rw [WorkDb.correlated, Table.row_append_of_some rows hold, Option.map_some]

/-- The keys of a call are inserted where they are new. Behind it all of them belong to its
ticket. -/
lemma insertKeys_ok {ticketId policyVersion now : String} {keys : List CorrelationKey}
    (h : WorkDb.insertKeys ticketId policyVersion now keys w = .ok w') :
    ∃ new : List KeyRow, w' = { w with keys := w.keys ++ new } ∧
      (∀ r ∈ new, r.ticketId = ticketId) ∧
      ((w.keys.map KeyRow.key).Nodup → ((w.keys ++ new).map KeyRow.key).Nodup) ∧
      ∀ key ∈ keys, w'.correlated key = some ticketId := by
  induction keys generalizing w with
  | nil =>
      cases h
      exact ⟨[], by simp, by simp, by simp, by simp⟩
  | cons key rest ih =>
      unfold WorkDb.insertKeys at h
      cases howner : w.correlated key with
      | some owner =>
          simp only [howner] at h
          split at h
          · cases h
          · next hsame =>
              obtain ⟨new, rfl, hnew, hnodup, hall⟩ := ih h
              refine ⟨new, rfl, hnew, hnodup, fun k hk => ?_⟩
              rcases List.mem_cons.mp hk with rfl | hk
              · rw [correlated_append howner, not_not.mp hsame]
              · exact hall k hk
      | none =>
          simp only [howner] at h
          obtain ⟨new, rfl, hnew, hnodup, hall⟩ := ih h
          have hfirst : WorkDb.correlated { w with
              keys := w.keys ++ [{ key, ticketId, policyVersion, admittedAt := now }] } key =
              some ticketId := by
            have hnone : row KeyRow.key w.keys key = none := Option.map_eq_none_iff.mp howner
            rw [WorkDb.correlated, Table.row_append, hnone, Option.none_or, Table.row_singleton,
              if_pos rfl, Option.map_some]
          refine ⟨{ key, ticketId, policyVersion, admittedAt := now } :: new, ?_, ?_, ?_, ?_⟩
          · rw [List.append_assoc, List.singleton_append]
          · intro r hr
            rcases List.mem_cons.mp hr with rfl | hr
            · rfl
            · exact hnew r hr
          · intro hbefore
            have hnone : row KeyRow.key w.keys key = none := Option.map_eq_none_iff.mp howner
            have hone := Table.nodup_append_singleton
              (r := { key, ticketId, policyVersion, admittedAt := now }) hbefore hnone
            have hmore := hnodup hone
            rwa [List.append_assoc, List.singleton_append] at hmore
          · intro k hk
            rcases List.mem_cons.mp hk with rfl | hk
            · exact correlated_append hfirst
            · exact hall k hk

/-- The ticket of a new source. -/
lemma ticketFor_ok {candidates : List String} {summary now : String} {found : Ticket}
    (h : w.ticketFor candidates summary now = .ok (w', found)) :
    (candidates = [] ∧ found = newTicket w.nextTicket summary now ∧
        (∀ t ∈ w.tickets, t.ticketId ≠ found.ticketId ∧ t.number ≠ found.number) ∧
        w' = { w with nextTicket := w.nextTicket + 1, tickets := w.tickets ++ [found] }) ∨
      ∃ t, candidates.head? = some t.ticketId ∧ w.ticket t.ticketId = some t ∧
        found = (WorkDb.reactivation summary now).apply t ∧
        w' = w.updateTicket t.ticketId (WorkDb.reactivation summary now).apply := by
  cases candidates with
  | nil =>
      unfold WorkDb.ticketFor WorkDb.openTicket at h
      obtain ⟨hfree, h⟩ := guard_ok h
      cases h
      refine .inl ⟨rfl, rfl, fun t ht => ?_, rfl⟩
      have hboth := not_exists.mp hfree t
      exact ⟨fun hid => hboth ⟨ht, .inl hid⟩, fun hnumber => hboth ⟨ht, .inr hnumber⟩⟩
  | cons ticketId rest =>
      unfold WorkDb.ticketFor at h
      simp only [ticket_moved] at h
      cases hticket : w.ticket ticketId with
      | none =>
          rw [hticket] at h
          cases h
      | some t =>
          have hid : t.ticketId = ticketId := Table.key_of_row hticket
          simp only [hticket, Option.map_some, if_pos hid] at h
          cases h
          exact .inr ⟨t, by simp [hid], by rw [hid, hticket], rfl, by rw [hid]⟩

end

variable [Digest]

/-- The admission of a source that is new. -/
lemma associate_ok {env : WorkEnv} {r : SourceRequest} {candidates : List String} {v : Value}
    (h : associate env r candidates w = .ok (w', v)) :
    ∃ w₁ found rows ticket, w.ticketFor candidates r.summary (env.now 0) = .ok (w₁, found) ∧
      (∀ s ∈ w₁.sources, s.name ≠ r.name) ∧
      (∀ row ∈ rows, row.ticketId = found.ticketId) ∧
      ((w₁.keys.map KeyRow.key).Nodup → ((w₁.keys ++ rows).map KeyRow.key).Nodup) ∧
      (∀ key ∈ r.keys,
        WorkDb.correlated { w₁ with keys := w₁.keys ++ rows } key = some found.ticketId) ∧
      w₁.ticket found.ticketId = some ticket ∧
      Concluded { w₁ with
          sources := w₁.sources ++ [r.source found.ticketId (env.now 0)]
          keys := w₁.keys ++ rows }
        ticket (r.note candidates.isEmpty (env.now 1)) w' ∧
      ∃ eventId revision, v = workDomain r.operationKey
        (sourceAnswer (if candidates.isEmpty then "created" else "attached")
          (.string found.ticketId) (.ofInt found.number) (.ofInt revision) (.string r.sourceId)
          r.receiptId [("event_id", .string eventId)]) := by
  unfold associate at h
  obtain ⟨⟨w₁, found⟩, hfound, h⟩ := Lists.bind_eq_ok h
  obtain ⟨w₂, hsource, h⟩ := Lists.bind_eq_ok h
  obtain ⟨w₃, hkeys, h⟩ := Lists.bind_eq_ok h
  obtain ⟨ticket, hticket, h⟩ := Lists.bind_eq_ok h
  obtain ⟨⟨w₄, eventId⟩, hevent, h⟩ := Lists.bind_eq_ok h
  obtain ⟨w₅, hoperation, h⟩ := Lists.bind_eq_ok h
  cases h
  unfold WorkDb.insertSource at hsource
  obtain ⟨hnew, hsource⟩ := guard_ok hsource
  cases hsource
  obtain ⟨rows, rfl, hrows, hnodup, hall⟩ := insertKeys_ok hkeys
  refine ⟨w₁, found, rows, ticket, hfound, fun s hs hname => ?_, hrows, hnodup, hall,
    workTicket_ok hticket, concluded hevent hoperation rfl, eventId, ticket.revision, rfl⟩
  exact hnew ⟨s, hs, .inr (.inr hname)⟩

/-- What an answer says of its call. -/
def answerStatus (v : Value) : Option Value := (v.get "result").bind fun r => r.get "status"

/-- **An admission of a source**: the answer of a call made before or of a source that is known,
a refusal to choose between tickets, or an association. -/
lemma admitSource_cases {env : WorkEnv} {args v : Value} (h : admitSource env args w = .ok (w', v)) :
    ∃ r, sourceRequest args = .ok r ∧
      (Quiet w w' ∨ w.sourceNamed r.name = none ∧ (w.candidates r.keys).length ≤ 1 ∧
        associate env r (w.candidates r.keys) w = .ok (w', v)) := by
  unfold admitSource at h
  obtain ⟨r, hr, h⟩ := Lists.bind_eq_ok h
  obtain ⟨stored, hstored, h⟩ := Lists.bind_eq_ok h
  refine ⟨r, hr, ?_⟩
  rcases existingOperation_cases hstored with ⟨rfl, hnone⟩ | ⟨o, ho, rfl⟩
  · cases hsource : w.sourceNamed r.name with
    | some source =>
        simp only [hsource] at h
        unfold alreadyAssociated at h
        obtain ⟨ticket, hticket, h⟩ := Lists.bind_eq_ok h
        obtain ⟨w₁, hoperation, h⟩ := Lists.bind_eq_ok h
        cases h
        obtain ⟨-, rfl⟩ := recordOperation_ok hoperation
        exact .inl (.operation _ _)
    | none =>
        simp only [hsource] at h
        by_cases hmany : 1 < (w.candidates r.keys).length
        · rw [if_pos hmany] at h
          unfold ambiguous at h
          obtain ⟨w₁, hoperation, h⟩ := Lists.bind_eq_ok h
          cases h
          obtain ⟨-, rfl⟩ := recordOperation_ok hoperation
          exact .inl (.operation _ _)
        · rw [if_neg hmany] at h
          exact .inr ⟨rfl, not_lt.mp hmany, h⟩
  · cases h
    exact .inl (.refl _)

end Sources

/-! ### Proposals -/

section Proposals

variable [FloatText] [Digest] {w w' : WorkDb}

/-- What a route does before the ticket moves, and the transition of the ticket. -/
inductive Leads (env : WorkEnv) (r : ProposalRequest) (w : WorkDb) :
    WorkDb → WorkDb.Transition → Prop
  | again {link : TaskLink} (hlink : link ∈ w.links) (hkey : link.operationKey = r.operationKey) :
      Leads env r w w (routeTransition .waitingOnTask r.summary (env.now 4) none none none)
  | followup {task : ProposedTask}
      (hid : w.lifecycle.task (followupTaskId r.operationKey) = none)
      (hnumber : w.lifecycle.taskNumbered (w.lifecycle.lastAllocated + 1) = none)
      (hlink : ∀ link ∈ w.links,
        ¬ (link.ticketId = r.ticketId ∧ link.taskId = followupTaskId r.operationKey)) :
      Leads env r w
        { writeFollowup env r task w with
          links := (writeFollowup env r task w).links ++
            [followupLink r.ticketId r.operationKey (env.now 3)] }
        (routeTransition .waitingOnTask r.summary (env.now 4) none none none)
  | draft {draft : ProposedDraft}
      (hclaim : ∀ c ∈ w.claims, c.claimId ≠ ProposedDraft.claimId r) :
      Leads env r w { w with claims := w.claims ++ [draft.claim r (env.now 0)] }
        (routeTransition .effectClaimed r.summary (env.now 1) none none none)
  | resolved (hlinks : ¬ ∃ l ∈ w.links, w.UnfinishedLink r.ticketId l)
      (hclaims : w.openClaims r.ticketId = []) (hdrafts : w.openDrafts r.ticketId = []) :
      Leads env r w w (routeTransition .resolved r.summary (env.now 1)
        (some (optionalText r.resolution "resolved")) none (some (env.now 0)))
  | blocked : Leads env r w w (routeTransition .blocked r.summary (env.now 0) none
      (some (optionalText r.blocker "operator_required")) none)

lemma createFollowup_ok {env : WorkEnv} {r : ProposalRequest} {task : ProposedTask} {number : ℤ}
    (h : createFollowup env r task w = .ok (w', number)) :
    w.lifecycle.task (followupTaskId r.operationKey) = none ∧
      w.lifecycle.taskNumbered (w.lifecycle.lastAllocated + 1) = none ∧
      (∀ link ∈ w.links,
        ¬ (link.ticketId = r.ticketId ∧ link.taskId = followupTaskId r.operationKey)) ∧
      w' = { writeFollowup env r task w with
        links := (writeFollowup env r task w).links ++
          [followupLink r.ticketId r.operationKey (env.now 3)] } := by
  unfold createFollowup at h
  obtain ⟨hid, h⟩ := guard_ok h
  obtain ⟨hnumber, h⟩ := guard_ok h
  obtain ⟨-, h⟩ := guard_ok h
  obtain ⟨-, h⟩ := guard_ok h
  obtain ⟨hlink, h⟩ := guard_ok h
  cases h
  exact ⟨by simpa using hid, by simpa using hnumber,
    fun link hmem hboth => hlink ⟨link, hmem, .inl hboth⟩, rfl⟩

/-- A task that follows up keeps what every write to the table of tasks keeps. -/
lemma TaskKept.followup {P : WorkDb → Prop} (hP : TaskKept P) {env : WorkEnv} {r : ProposalRequest}
    {task : ProposedTask} (hid : w.lifecycle.task (followupTaskId r.operationKey) = none)
    (hnumber : w.lifecycle.taskNumbered (w.lifecycle.lastAllocated + 1) = none) (h : P w) :
    P (writeFollowup env r task w) := by
  have htouch (taskId now : String) (w : WorkDb) (h : P w) : P (w.touch taskId now) :=
    hP.update _ _ _ _ ⟨fun _ => rfl, fun _ => rfl, fun _ _ => rfl, fun _ => .inl rfl⟩ h
  have hspec (spec : TaskLifecycle.Spec) (w : WorkDb) (h : P w) : P (w.addSpec spec) :=
    hP.tables w { w.lifecycle with specs := w.lifecycle.specs ++ [spec] } h
  have hcontract (contract : TaskLifecycle.OutcomeContract) (w : WorkDb) (h : P w) :
      P (w.addContract contract) :=
    hP.tables w { w.lifecycle with
      outcomeContracts := w.lifecycle.outcomeContracts ++ [contract] } h
  have hallocated : P { w with
      lifecycle := { w.lifecycle with lastAllocated := w.lifecycle.lastAllocated + 1 } } :=
    hP.tables w { w.lifecycle with lastAllocated := w.lifecycle.lastAllocated + 1 } h
  exact htouch _ _ _ (hcontract _ _ (htouch _ _ _ (hspec _ _
    (hP.insert _ _ hid hnumber rfl rfl hallocated))))

/-- A route leads its ticket on. -/
lemma takeRoute_ok {env : WorkEnv} {r : ProposalRequest} {routed : Routed}
    (h : takeRoute env r w = .ok routed) :
    ∃ body m t, Leads env r w body m ∧ body.ticket r.ticketId = some t ∧
      routed.db = body.updateTicket r.ticketId m.apply ∧ routed.ticket = m.apply t := by
  unfold takeRoute at h
  cases hroute : r.route with
  | followupTask =>
      simp only [hroute] at h
      unfold followupTask at h
      obtain ⟨task, -, h⟩ := Lists.bind_eq_ok h
      split at h
      · next link hlink =>
          obtain ⟨⟨moved, ticket⟩, hmoved, h⟩ := Lists.bind_eq_ok h
          cases h
          obtain ⟨t, ht, rfl, rfl⟩ := workTransition_ok hmoved
          exact ⟨w, _, t, .again (List.mem_of_find?_eq_some hlink)
            (by simpa using List.find?_some hlink), ht, rfl, rfl⟩
      · obtain ⟨⟨created, number⟩, hcreated, h⟩ := Lists.bind_eq_ok h
        obtain ⟨⟨moved, ticket⟩, hmoved, h⟩ := Lists.bind_eq_ok h
        cases h
        obtain ⟨t, ht, rfl, rfl⟩ := workTransition_ok hmoved
        obtain ⟨hid, hnumber, hlink, rfl⟩ := createFollowup_ok hcreated
        exact ⟨_, _, t, .followup hid hnumber hlink, ht, rfl, rfl⟩
  | responseDraft =>
      simp only [hroute] at h
      unfold responseDraft at h
      obtain ⟨draft, -, h⟩ := Lists.bind_eq_ok h
      obtain ⟨hclaim, h⟩ := guard_ok h
      obtain ⟨⟨moved, ticket⟩, hmoved, h⟩ := Lists.bind_eq_ok h
      cases h
      obtain ⟨t, ht, rfl, rfl⟩ := workTransition_ok hmoved
      exact ⟨_, _, t, .draft fun c hc hid => hclaim ⟨c, hc, .inl hid⟩, ht, rfl, rfl⟩
  | resolved =>
      simp only [hroute] at h
      unfold resolveTicket at h
      obtain ⟨hlinks, h⟩ := guard_ok h
      obtain ⟨hclaims, h⟩ := guard_ok h
      obtain ⟨hdrafts, h⟩ := guard_ok h
      obtain ⟨⟨moved, ticket⟩, hmoved, h⟩ := Lists.bind_eq_ok h
      cases h
      obtain ⟨t, ht, rfl, rfl⟩ := workTransition_ok hmoved
      exact ⟨_, _, t, .resolved hlinks (not_not.mp hclaims) (not_not.mp hdrafts), ht, rfl, rfl⟩
  | blockedOperator =>
      simp only [hroute] at h
      unfold blockTicket at h
      obtain ⟨⟨moved, ticket⟩, hmoved, h⟩ := Lists.bind_eq_ok h
      cases h
      obtain ⟨t, ht, rfl, rfl⟩ := workTransition_ok hmoved
      exact ⟨_, _, t, .blocked, ht, rfl, rfl⟩

/-- **A proposal**: the answer of a call made before, or a route from the revision that the call
expects. -/
lemma admitProposal_cases {env : WorkEnv} {args v : Value}
    (h : admitProposal env args w = .ok (w', v)) :
    ∃ r, proposalRequest args = .ok r ∧
      (w' = w ∨ ∃ before body m t n, w.ticket r.ticketId = some before ∧
        before.revision = r.expectedRevision ∧ Leads env r w body m ∧
        body.ticket r.ticketId = some t ∧ n.operationKey = r.operationKey ∧
        Concluded (body.updateTicket r.ticketId m.apply) (m.apply t) n w') := by
  unfold admitProposal at h
  obtain ⟨r, hr, h⟩ := Lists.bind_eq_ok h
  obtain ⟨stored, hstored, h⟩ := Lists.bind_eq_ok h
  refine ⟨r, hr, ?_⟩
  rcases existingOperation_cases hstored with ⟨rfl, hnone⟩ | ⟨o, ho, rfl⟩
  · obtain ⟨before, hbefore, h⟩ := Lists.bind_eq_ok h
    obtain ⟨hrevision, h⟩ := guard_ok h
    unfold carryOut at h
    obtain ⟨routed, hrouted, h⟩ := Lists.bind_eq_ok h
    obtain ⟨⟨noted, eventId⟩, hevent, h⟩ := Lists.bind_eq_ok h
    obtain ⟨recorded, hoperation, h⟩ := Lists.bind_eq_ok h
    cases h
    obtain ⟨body, m, t, hleads, ht, hdb, hticket⟩ := takeRoute_ok hrouted
    rw [hdb, hticket] at hevent
    exact .inr ⟨before, body, m, t, _, workTicket_ok hbefore, not_not.mp hrevision, hleads, ht,
      rfl, concluded hevent hoperation rfl⟩
  · cases h
    exact .inl rfl

end Proposals

/-! ### Drafts -/

section Drafts

variable [FloatText] [Digest] {w w' : WorkDb}

/-- A receipt changes claims and drafts. -/
lemma received_eq (r : ReceiptRequest) (now : String) (w : WorkDb) :
    r.received now w = { w with
      claims := (w.completeClaim r now).claims
      drafts := (r.received now w).drafts } := by
  rw [ReceiptRequest.received, WorkDb.supersede, WorkDb.upsertDraft]
  split <;> rfl

omit [Digest] in
/-- A reconciliation changes drafts. -/
lemma dispose_eq (r : ReconcileRequest) (now : String) (w : WorkDb) :
    r.dispose now w = { w with drafts := (r.dispose now w).drafts } := by
  rw [ReconcileRequest.dispose]
  cases r.evidence.observed <;> rfl

omit [Digest] in
/-- The other drafts behind a reconciliation give way where its own was sent. -/
lemma ReconcileRequest.exists_others (r : ReconcileRequest) (now : String) (w : WorkDb) :
    ∃ others : WorkDb, (others = w.supersede r.ticketId r.draftId r.supersession now ∨
      others = w) ∧ r.dispose now w = { others with
        drafts := updateWhere (fun d => d.ticketId = r.ticketId ∧ d.draftId = r.draftId)
          (.disposed r.evidence.observed.disposition r.disposition now) others.drafts } := by
  unfold ReconcileRequest.dispose
  cases r.evidence.observed with
  | sent => exact ⟨_, .inl rfl, rfl⟩
  | discarded => exact ⟨_, .inr rfl, rfl⟩

/-- What the event of a receipt says whose ticket has moved on. -/
def ReceiptRequest.lateNote (r : ReceiptRequest) (claim : EffectClaim) (t : Ticket)
    (now : String) : EventNote :=
  r.note "ticket.draft_effect.superseded"
    [("effect_claim_id", .string r.claimId), ("claimed_revision", .ofInt claim.ticketRevision),
      ("current_revision", .ofInt t.revision)] now

/-- What the event of a receipt says that is accepted. -/
def ReceiptRequest.acceptedNote (r : ReceiptRequest) (now : String) : EventNote :=
  r.note "ticket.draft.receipt_recorded"
    [("effect_claim_id", .string r.claimId), ("draft_id", .string r.draftId),
      ("receipt_id", .string r.receiptId)] now

/-- A receipt that is new, of a claim of its ticket. -/
structure ReceiptRequest.Meets (r : ReceiptRequest) (w : WorkDb) (claim : EffectClaim)
    (t : Ticket) : Prop where
  unrecorded : w.operation r.operationKey = none
  found : w.claim r.claimId r.ticketId = some claim
  draftOperation : claim.operationKey = r.draftOperation
  requestDigest : claim.requestDigest = r.requestDigest
  ticket : w.ticket r.ticketId = some t

/-- A receipt that goes through late: its ticket has moved on since the claim. -/
def ReceiptRequest.Late (r : ReceiptRequest) (env : WorkEnv) (w : WorkDb) : Prop :=
  ∃ claim t, r.Meets w claim t ∧ t.revision ≠ claim.ticketRevision ∧
    w.Writable t (r.lateNote claim t (env.now 1)) (draftAnswer "superseded" t)

/-- What an accepted receipt gives its ticket. -/
def ReceiptRequest.transition (env : WorkEnv) : WorkDb.Transition :=
  draftTransition .waitingOnDraft none none (env.now 1)

/-- A receipt that goes through in time. -/
def ReceiptRequest.InTime (r : ReceiptRequest) (env : WorkEnv) (w : WorkDb) : Prop :=
  ∃ claim t, r.Meets w claim t ∧ t.revision = claim.ticketRevision ∧
    ¬ (claim.status = .claimed ∧ 16384 < r.receipt.bytes) ∧
    w.Writable ((transition env).apply t) (r.acceptedNote (env.now 2)) (draftAnswer "recorded"
      ((transition env).apply t))

/-- **A receipt**: the answer of a call made before, a claim that gives way since its ticket has
moved on, or a draft that is there. -/
lemma recordDraftReceipt_cases {env : WorkEnv} {args v : Value}
    (h : recordDraftReceipt env args w = .ok (w', v)) :
    ∃ r, receiptRequest args = .ok r ∧
      (w.operation r.operationKey ≠ none ∧ w' = w ∨ ∃ claim t n, r.Meets w claim t ∧ n.operationKey = r.operationKey ∧
        (t.revision ≠ claim.ticketRevision ∧ r.Late env w ∧
            Concluded (w.supersedeClaim r.claimId) t n w' ∨
          t.revision = claim.ticketRevision ∧ r.InTime env w ∧
            Concluded
              ((r.received (env.now 0) w).updateTicket r.ticketId
                (ReceiptRequest.transition env).apply)
              ((ReceiptRequest.transition env).apply t) n w')) := by
  unfold recordDraftReceipt at h
  obtain ⟨r, hr, h⟩ := Lists.bind_eq_ok h
  obtain ⟨stored, hstored, h⟩ := Lists.bind_eq_ok h
  refine ⟨r, hr, ?_⟩
  rcases existingOperation_cases hstored with ⟨rfl, hnone⟩ | ⟨o, ho, rfl⟩
  · simp only at h
    cases hclaim : w.claim r.claimId r.ticketId with
    | none =>
        rw [hclaim] at h
        cases h
    | some claim =>
        simp only [hclaim] at h
        obtain ⟨hdraft, h⟩ := guard_ok h
        obtain ⟨hrequest, h⟩ := guard_ok h
        obtain ⟨t, ht, h⟩ := Lists.bind_eq_ok h
        have hmeets : r.Meets w claim t :=
          ⟨hnone, hclaim, not_not.mp hdraft, not_not.mp hrequest, workTicket_ok ht⟩
        by_cases hrevision : t.revision = claim.ticketRevision
        · rw [if_neg (not_not.mpr hrevision)] at h
          unfold acceptReceipt at h
          obtain ⟨hreceipt, h⟩ := guard_ok h
          obtain ⟨⟨moved, ticket⟩, hmoved, h⟩ := Lists.bind_eq_ok h
          obtain ⟨⟨noted, eventId⟩, hevent, h⟩ := Lists.bind_eq_ok h
          obtain ⟨recorded, hoperation, h⟩ := Lists.bind_eq_ok h
          cases h
          obtain ⟨t', ht', rfl, rfl⟩ := workTransition_ok hmoved
          have htt' : t' = t := by
            rw [received_eq] at ht'
            exact Option.some.inj (ht'.symm.trans hmeets.ticket)
          subst htt'
          have hwritable : w.Writable _ _ _ := (writable_of_ok
            (draftAnswer "recorded" ((ReceiptRequest.transition env).apply t')) hevent hoperation
            rfl).of_same (by rw [received_eq]; rfl) (by rw [received_eq]; rfl)
          exact .inr ⟨claim, t', _, hmeets, rfl, .inr ⟨hrevision,
            ⟨claim, t', hmeets, hrevision, hreceipt, hwritable⟩,
            concluded hevent hoperation rfl⟩⟩
        · rw [if_pos hrevision] at h
          unfold supersedeReceipt at h
          obtain ⟨⟨noted, eventId⟩, hevent, h⟩ := Lists.bind_eq_ok h
          obtain ⟨recorded, hoperation, h⟩ := Lists.bind_eq_ok h
          cases h
          have hwritable : w.Writable _ _ _ :=
            (writable_of_ok (draftAnswer "superseded" t) hevent hoperation rfl).of_same rfl rfl
          exact .inr ⟨claim, t, _, hmeets, rfl, .inl ⟨hrevision,
            ⟨claim, t, hmeets, hrevision, hwritable⟩, concluded hevent hoperation rfl⟩⟩
  · cases h
    refine .inl ⟨?_, rfl⟩
    rw [ho]
    nofun

/-- A receipt that meets the checks goes through. -/
lemma recordDraftReceipt_ok {env : WorkEnv} {args : Value} {r : ReceiptRequest}
    (hr : receiptRequest args = .ok r) (h : r.Late env w ∨ r.InTime env w) :
    ∃ behind, recordDraftReceipt env args w = .ok behind := by
  rw [recordDraftReceipt, bind_of_ok hr]
  rcases h with ⟨claim, t, hmeets, hrevision, hwritable⟩ | ⟨claim, t, hmeets, hrevision, hreceipt,
    hwritable⟩
  · rw [bind_of_ok (existingOperation_of_none hmeets.unrecorded)]
    simp only [hmeets.found]
    rw [if_neg (not_not.mpr hmeets.draftOperation), if_neg (not_not.mpr hmeets.requestDigest),
      bind_of_ok (workTicket_of_some hmeets.ticket), if_pos hrevision, supersedeReceipt]
    have hclaims : (w.supersedeClaim r.claimId).Writable t (r.lateNote claim t (env.now 1))
        (draftAnswer "superseded" t) := hwritable.of_same rfl rfl
    exact exists_bind_ok hclaims.workEvent (exists_bind_ok
      (recordOperation_of_small hwritable.answer hmeets.unrecorded) ⟨_, rfl⟩)
  · rw [bind_of_ok (existingOperation_of_none hmeets.unrecorded)]
    simp only [hmeets.found]
    rw [if_neg (not_not.mpr hmeets.draftOperation), if_neg (not_not.mpr hmeets.requestDigest),
      bind_of_ok (workTicket_of_some hmeets.ticket), if_neg (not_not.mpr hrevision),
      acceptReceipt, if_neg hreceipt]
    have hticket : (r.received (env.now 0) w).ticket r.ticketId = some t := by
      rw [received_eq]
      exact hmeets.ticket
    have hmoved : ((r.received (env.now 0) w).updateTicket r.ticketId
        (ReceiptRequest.transition env).apply).Writable ((ReceiptRequest.transition env).apply t)
        (r.acceptedNote (env.now 2))
        (draftAnswer "recorded" ((ReceiptRequest.transition env).apply t)) := by
      rw [received_eq]
      exact hwritable.of_same rfl rfl
    have hunrecorded : (r.received (env.now 0) w).operation r.operationKey = none := by
      rw [received_eq]
      exact hmeets.unrecorded
    exact exists_bind_ok (workTransition_of_some _ hticket) (exists_bind_ok hmoved.workEvent
      (exists_bind_ok (recordOperation_of_small hwritable.answer hunrecorded) ⟨_, rfl⟩))

/-- What a reconciliation gives the ticket that it finds. -/
def ReconcileRequest.moved (r : ReconcileRequest) (env : WorkEnv) (t : Ticket) : Ticket :=
  (r.transition (env.now 0) (env.now 1)).apply t

/-- A reconciliation that goes through. -/
def ReconcileRequest.Passes (r : ReconcileRequest) (env : WorkEnv) (w : WorkDb) : Prop :=
  w.operation r.operationKey = none ∧
    (∃ draft, w.draft r.ticketId r.draftId = some draft ∧ r.Linked draft) ∧
    ¬ (r.givingWay w ≠ [] ∧ 16384 < r.supersessionJson.bytes) ∧
    ∃ t, w.ticket r.ticketId = some t ∧
      w.Writable (r.moved env t) (r.note (r.givingWay w) (env.now 2))
        (draftAnswer "reconciled" (r.moved env t))

/-- **A reconciliation**: the answer of a call made before, or a draft that is disposed of. -/
lemma reconcileDraft_cases {env : WorkEnv} {args v : Value}
    (h : reconcileDraft env args w = .ok (w', v)) :
    ∃ r, reconcileRequest args = .ok r ∧
      (w.operation r.operationKey ≠ none ∧ w' = w ∨ r.Passes env w ∧ ∃ t n, w.ticket r.ticketId = some t ∧
        n.operationKey = r.operationKey ∧
        Concluded
          ((r.dispose (env.now 0) w).updateTicket r.ticketId
            (r.transition (env.now 0) (env.now 1)).apply)
          (r.moved env t) n w') := by
  unfold reconcileDraft at h
  obtain ⟨r, hr, h⟩ := Lists.bind_eq_ok h
  obtain ⟨stored, hstored, h⟩ := Lists.bind_eq_ok h
  refine ⟨r, hr, ?_⟩
  rcases existingOperation_cases hstored with ⟨rfl, hnone⟩ | ⟨o, ho, rfl⟩
  · simp only at h
    cases hdraft : w.draft r.ticketId r.draftId with
    | none =>
        rw [hdraft] at h
        cases h
    | some draft =>
        simp only [hdraft] at h
        obtain ⟨hlinked, h⟩ := guard_ok h
        unfold carryReconcile at h
        obtain ⟨hgiving, h⟩ := guard_ok h
        obtain ⟨⟨moved, ticket⟩, hmoved, h⟩ := Lists.bind_eq_ok h
        obtain ⟨⟨noted, eventId⟩, hevent, h⟩ := Lists.bind_eq_ok h
        obtain ⟨recorded, hoperation, h⟩ := Lists.bind_eq_ok h
        cases h
        obtain ⟨t, ht, rfl, rfl⟩ := workTransition_ok hmoved
        rw [dispose_eq] at ht
        have hwritable : w.Writable _ _ _ :=
          (writable_of_ok (draftAnswer "reconciled" (r.moved env t)) hevent hoperation rfl).of_same
            (by rw [dispose_eq]; rfl) (by rw [dispose_eq]; rfl)
        exact .inr ⟨⟨hnone, ⟨draft, hdraft, not_not.mp hlinked⟩, hgiving, t, ht, hwritable⟩,
          t, _, ht, rfl, concluded hevent hoperation rfl⟩
  · cases h
    refine .inl ⟨?_, rfl⟩
    rw [ho]
    nofun

/-- A reconciliation that meets the checks goes through. -/
lemma reconcileDraft_ok {env : WorkEnv} {args : Value} {r : ReconcileRequest}
    (hr : reconcileRequest args = .ok r) (h : r.Passes env w) :
    ∃ behind, reconcileDraft env args w = .ok behind := by
  obtain ⟨hnone, ⟨draft, hdraft, hlinked⟩, hgiving, t, ht, hwritable⟩ := h
  rw [reconcileDraft, bind_of_ok hr, bind_of_ok (existingOperation_of_none hnone)]
  simp only [hdraft]
  rw [if_neg (not_not.mpr hlinked), carryReconcile, if_neg hgiving]
  have hticket : (r.dispose (env.now 0) w).ticket r.ticketId = some t := by
    rw [dispose_eq]
    exact ht
  have hmoved : ((r.dispose (env.now 0) w).updateTicket r.ticketId
      (r.transition (env.now 0) (env.now 1)).apply).Writable (r.moved env t)
      (r.note (r.givingWay w) (env.now 2)) (draftAnswer "reconciled" (r.moved env t)) := by
    rw [dispose_eq]
    exact hwritable.of_same rfl rfl
  have hunrecorded : (r.dispose (env.now 0) w).operation r.operationKey = none := by
    rw [dispose_eq]
    exact hnone
  exact exists_bind_ok (workTransition_of_some _ hticket) (exists_bind_ok hmoved.workEvent
    (exists_bind_ok (recordOperation_of_small hwritable.answer hunrecorded) ⟨_, rfl⟩))

end Drafts

/-! ### The other calls -/

section Others

variable [FloatText] [Digest] {w w' : WorkDb}

lemma processingContext_cases {env : WorkEnv} {args v : Value}
    (h : processingContext env args w = .ok (w', v)) : Quiet w w' := by
  unfold processingContext at h
  obtain ⟨operationKey, -, h⟩ := Lists.bind_eq_ok h
  obtain ⟨ticketId, -, h⟩ := Lists.bind_eq_ok h
  obtain ⟨eventId, -, h⟩ := Lists.bind_eq_ok h
  obtain ⟨stored, hstored, h⟩ := Lists.bind_eq_ok h
  rcases existingOperation_cases hstored with ⟨rfl, -⟩ | ⟨o, -, rfl⟩
  · obtain ⟨ticket, -, h⟩ := Lists.bind_eq_ok h
    split at h
    · cases h
    · obtain ⟨recorded, hoperation, h⟩ := Lists.bind_eq_ok h
      cases h
      obtain ⟨-, rfl⟩ := recordOperation_ok hoperation
      exact .operation _ _
  · cases h
    exact .refl _

/-- A call that changes no ticket. -/
def TicketCall.Idle : TicketCall → Prop
  | processingContext _ _ | outboxRegister _ | outboxAck _ _ | outboxCompact _ _ _ => True
  | _ => False

/-- **The other calls are quiet.** -/
lemma quiet_of_idle {call : TicketCall} {v : Value} (h : call.transact w = .ok (w', v))
    (hidle : call.Idle) : Quiet w w' := by
  cases call with
  | processingContext env args => exact processingContext_cases h
  | outboxRegister args =>
      replace h : outboxRegister args w = .ok (w', v) := h
      unfold outboxRegister at h
      obtain ⟨topic, -, h⟩ := Lists.bind_eq_ok h
      obtain ⟨consumer, -, h⟩ := Lists.bind_eq_ok h
      cases h
      exact ⟨rfl, rfl, rfl, rfl, rfl, rfl, rfl, rfl, rfl, ⟨[], by simp⟩, fun _ => false, "",
        (updateWhere_false _ _).symm⟩
  | outboxAck env args =>
      replace h : outboxAck env args w = .ok (w', v) := h
      unfold outboxAck at h
      obtain ⟨eventId, -, h⟩ := Lists.bind_eq_ok h
      obtain ⟨consumer, -, h⟩ := Lists.bind_eq_ok h
      split at h
      · cases h
      · obtain ⟨receipt, -, h⟩ := Lists.bind_eq_ok h
        obtain ⟨-, h⟩ := guard_ok h
        cases h
        exact ⟨rfl, rfl, rfl, rfl, rfl, rfl, rfl, rfl, rfl, ⟨[], by simp⟩, fun _ => false, "",
          (updateWhere_false _ _).symm⟩
  | outboxCompact env isTime args =>
      replace h : outboxCompact env isTime args w = .ok (w', v) := h
      unfold outboxCompact at h
      obtain ⟨before, -, h⟩ := Lists.bind_eq_ok h
      obtain ⟨-, h⟩ := guard_ok h
      cases h
      refine ⟨rfl, rfl, rfl, rfl, rfl, rfl, rfl, rfl, rfl, ⟨[], by simp⟩,
        fun o => o.compactedAt = none ∧ o.createdAt < before ∧ w.Processed o, env.now 0, ?_⟩
      simp only [updateWhere, decide_eq_true_eq]
      rfl
  | admitSource => cases hidle
  | admitProposal => cases hidle
  | recordDraftReceipt => cases hidle
  | reconcileDraft => cases hidle

end Others

end WorkLifecycle

end McpSurfaces
