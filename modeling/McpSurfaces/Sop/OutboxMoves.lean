import McpSurfaces.Foundation.Calls
import McpSurfaces.Sop.CallEffects

/-!
What a call can do to the outbox, its consumers and their receipts: consumers register and
acknowledge, a compaction takes payloads, a retry takes the event of the run that it reopens,
and reconciliation puts events.

* `outbox_step`: every call makes one of these moves, and then puts events.
* **`Settled`**: an event that is compacted was acknowledged by every consumer it concerns, and
  one that is not has its whole payload. Every call keeps this (`Settled.call`).
* **`kept_of_run`**: an event that a consumer has not acknowledged stays what it is, until its
  run is reopened.
-/

namespace McpSurfaces

namespace Sop

open EventLedger (Digest)
open Calls (run)
open Work (Guarantees MayDo)

variable [FloatText] [FloatRead] [Digest] [IsoTime]

/-! ### Events that are put -/

/-- Events are named apart. -/
def Store.EventsUnique (s : Store) : Prop := (s.outbox.map (·.eventId)).Nodup

/-- Events are put, and nothing else is done to the outbox. -/
structure Puts (s t : Store) : Prop where
  requirements : t.requirements = s.requirements
  receipts : t.receipts = s.receipts
  outbox : ∃ new, t.outbox = s.outbox ++ new ∧ ∀ e ∈ new, e.Full
  unique : s.EventsUnique → t.EventsUnique

omit [IsoTime] in
/-- A store with the same outbox, consumers and receipts. -/
lemma Puts.of_eq {s t : Store} (hrequirements : t.requirements = s.requirements)
    (hreceipts : t.receipts = s.receipts) (houtbox : t.outbox = s.outbox) : Puts s t where
  requirements := hrequirements
  receipts := hreceipts
  outbox := ⟨[], by rw [houtbox, List.append_nil], fun e he => by cases he⟩
  unique hunique := by
    rw [Store.EventsUnique, houtbox]
    exact hunique

instance : Std.Refl Puts := ⟨fun _ => .of_eq rfl rfl rfl⟩

instance : IsTrans Store Puts := ⟨fun s t u hst htu => by
  obtain ⟨new, hnew, hfull⟩ := hst.outbox
  obtain ⟨more, hmore, hfull'⟩ := htu.outbox
  refine ⟨htu.requirements.trans hst.requirements, htu.receipts.trans hst.receipts,
    ⟨new ++ more, by rw [hmore, hnew, List.append_assoc], fun e he => ?_⟩,
    fun h => htu.unique (hst.unique h)⟩
  rcases List.mem_append.mp he with he | he
  · exact hfull e he
  · exact hfull' e he⟩

omit [IsoTime] in
/-- Reconciliation puts events. -/
lemma writes_puts : Writes Puts where
  run _ _ _ _ _ _ _ := .of_eq rfl rfl rfl
  handoff _ _ _ _ _ _ _ _ := .of_eq rfl rfl rfl
  action _ _ _ _ _ _ _ := .of_eq rfl rfl rfl
  saved _ _ _ := .of_eq rfl rfl rfl
  event s e hfull hnew := {
    requirements := rfl
    receipts := rfl
    outbox := ⟨[e], rfl, fun e' he' => by
      rw [List.mem_singleton.mp he']
      exact hfull⟩
    unique := fun hunique => by
      refine Table.nodup_append_singleton hunique (Table.row_eq_none_iff.mpr fun hmem => ?_)
      obtain ⟨other, hother, hid⟩ := List.mem_map.mp hmem
      exact (hnew other hother).1 hid }

/-! ### Moves of the outbox -/

variable [JsonSchema]

/-- What a call does to the outbox before it puts events. -/
inductive OutboxMove : Call → Store → Store → Prop
  | stays (c : Call) (s : Store) : OutboxMove c s s
  | registers {env : Env} {args : Map} {s : Store} {r : Requirement}
      (hnew : s.requirement r.topic r.consumerId = none)
      (hwhole : ∀ e ∈ s.outbox, e.topic = r.topic → r.startAt ≤ e.createdAt → e.compactedAt = none) :
      OutboxMove (.tool .outboxConsumerRegister env args) s (s.withRequirement r)
  | acknowledges {env : Env} {args : Map} {s t : Store} {r : Receipt}
      (hevent : argText args "event_id" = some r.eventId)
      (hconsumer : argText args "consumer_id" = some r.consumerId) (hacks : Acknowledges s t r) :
      OutboxMove (.tool .outboxAck env args) s t
  | compacts {env : Env} {args : Map} {s : Store} (cutoff now : String) :
      OutboxMove (.tool .outboxCompact env args) s
        (s.updateOutbox (s.Compactable cutoff) (·.compact now))
  | reopens {env : Env} {args : Map} {s t : Store} {runId : String}
      (hretries : RetriesRun s args runId) (hreopens : ReopensRun runId s t) :
      OutboxMove (.tool .handoffRetry env args) s t

section

omit [IsoTime] [JsonSchema]

lemma updateHandoffs_puts (s : Store) (p : Handoff → Prop) [DecidablePred p]
    (set : Handoff → Handoff) : Puts s (s.updateHandoffs p set) := .of_eq rfl rfl rfl

lemma cancelWork_puts (s : Store) (runId error now : String) :
    Puts s (s.cancelWork runId error now) := .of_eq rfl rfl rfl

end

omit [JsonSchema] in
lemma actionRecord_puts (env : Env) (args : Map) : Guarantees Puts (actionRecord env args) :=
  Writes.actionRecord (fun _ _ _ _ => .of_eq rfl rfl rfl) env args

/-- **Every call makes a move of the outbox, and then puts events.** -/
theorem outbox_step (s : Store) (c : Call) : ∃ u, OutboxMove c s u ∧ Puts u (s.after c) := by
  cases c with
  | templates templates => exact ⟨s, .stays _ s, .of_eq rfl rfl rfl⟩
  | tool tool env args =>
      rcases after_tool s tool env args with hsame | hok
      · exact ⟨s, .stays _ s, by rw [hsame]; exact .of_eq rfl rfl rfl⟩
      · generalize s.after (.tool tool env args) = t at hok ⊢
        cases tool with
        | runStart =>
            obtain ⟨r, hok⟩ := drop_ok hok
            exact ⟨s, .stays _ s, (writes_puts.runStart env args).of_exec hok⟩
        | runRefresh =>
            obtain ⟨r, hok⟩ := drop_ok hok
            exact ⟨s, .stays _ s, (writes_puts.runRefresh env args).of_exec hok⟩
        | runAdvance =>
            obtain ⟨r, hok⟩ := drop_ok hok
            obtain ⟨c, u, -, hputs, hu⟩ := runAdvance_ok writes_puts hok
            rcases hu with rfl | ⟨row, now, -, -, -, -, rfl⟩
            · exact ⟨u, .stays _ u, hputs⟩
            · exact ⟨s, .stays _ s, trans_of Puts (updateHandoffs_puts _ _ _) hputs⟩
        | handoffRetry =>
            obtain ⟨r, hok⟩ := drop_ok hok
            obtain ⟨u, hreopened, hputs⟩ := handoffRetry_ok writes_puts hok
            rcases hreopened with rfl | ⟨runId, v, hretries, hv, hu⟩
            · exact ⟨u, .stays _ u, hputs⟩
            · have hafter : Puts v t := by
                rcases hu with rfl | ⟨id, marker, now, rfl⟩
                · exact hputs
                · exact trans_of Puts (updateHandoffs_puts _ _ _) hputs
              rcases hv with rfl | hreopens
              · exact ⟨v, .stays _ v, hafter⟩
              · exact ⟨v, .reopens hretries hreopens, hafter⟩
        | actionRecord =>
            obtain ⟨r, hok⟩ := drop_ok hok
            exact ⟨s, .stays _ s, (actionRecord_puts env args).of_exec hok⟩
        | actionReconcile =>
            exact ⟨s, .stays _ s, (writes_puts.actionReconcile env args).of_exec hok⟩
        | runCancel =>
            obtain ⟨r, hok⟩ := drop_ok hok
            exact ⟨s, .stays _ s, (writes_puts.runCancel cancelWork_puts env args).of_exec hok⟩
        | handoffClaim =>
            obtain ⟨r, hok⟩ := drop_ok hok
            rcases handoffClaim_ok hok with rfl | ⟨_, _, _, _, -, -, rfl⟩
            · exact ⟨t, .stays _ t, .of_eq rfl rfl rfl⟩
            · exact ⟨s, .stays _ s, .of_eq rfl rfl rfl⟩
        | handoffRenew =>
            obtain ⟨r, hok⟩ := drop_ok hok
            obtain ⟨_, _, _, _, _, _, -, -, -, rfl⟩ := handoffRenew_ok hok
            exact ⟨s, .stays _ s, .of_eq rfl rfl rfl⟩
        | handoffRelease =>
            obtain ⟨r, hok⟩ := drop_ok hok
            obtain ⟨_, _, _, _, _, _, -, -, -, rfl⟩ := handoffRelease_ok hok
            exact ⟨s, .stays _ s, .of_eq rfl rfl rfl⟩
        | outboxConsumerRegister =>
            obtain ⟨r, hok⟩ := drop_ok hok
            rcases (outboxConsumerRegister_effect env args).of_exec hok with rfl | ⟨r, hnew, hwhole, rfl⟩
            · exact ⟨t, .stays _ t, .of_eq rfl rfl rfl⟩
            · exact ⟨_, .registers hnew hwhole, .of_eq rfl rfl rfl⟩
        | outboxAck =>
            obtain ⟨r, hok⟩ := drop_ok hok
            rcases outboxAck_ok hok with rfl | ⟨r, hevent, hconsumer, hacks⟩
            · exact ⟨t, .stays _ t, .of_eq rfl rfl rfl⟩
            · exact ⟨t, .acknowledges hevent hconsumer hacks, .of_eq rfl rfl rfl⟩
        | outboxCompact =>
            rcases (outboxCompact_effect env args).of_exec hok with rfl | ⟨cutoff, now, rfl⟩
            · exact ⟨t, .stays _ t, .of_eq rfl rfl rfl⟩
            · exact ⟨_, .compacts cutoff now, .of_eq rfl rfl rfl⟩

/-! ### What is acknowledged -/

/-- A consumer has acknowledged an event. -/
def Store.Acked (s : Store) (eventId consumer : String) : Prop :=
  ∃ r ∈ s.receipts, r.eventId = eventId ∧ r.consumerId = consumer

/-- An event that is compacted was acknowledged by every consumer that it concerns, and one that
is not is whole. -/
structure Store.Settled (s : Store) : Prop where
  unique : s.EventsUnique
  whole : ∀ e ∈ s.outbox, e.compactedAt = none → e.Full
  compacted : ∀ e ∈ s.outbox, e.compactedAt ≠ none → ∀ r ∈ s.requirements, Store.Concerns r e →
    s.Acked e.eventId r.consumerId

section

omit [IsoTime] [JsonSchema]

/-- An event as it is put is not compacted. -/
lemma OutboxEvent.Full.compactedAt {e : OutboxEvent} (h : e.Full) : e.compactedAt = none := by
  obtain ⟨run, outcome, -, -, he⟩ := h
  rw [he]
  rfl

lemma settled_empty : Store.empty.Settled where
  unique := List.nodup_nil
  whole e he := by cases he
  compacted e he := by cases he

lemma Store.Settled.puts {s t : Store} (h : s.Settled) (hputs : Puts s t) : t.Settled := by
  obtain ⟨new, hnew, hfull⟩ := hputs.outbox
  refine ⟨hputs.unique h.unique, fun e he hopen => ?_, fun e he hcompacted r hr hconcerns => ?_⟩
  · rw [hnew] at he
    rcases List.mem_append.mp he with he | he
    · exact h.whole e he hopen
    · exact hfull e he
  · rw [hnew] at he
    rw [hputs.requirements] at hr
    rw [Store.Acked, hputs.receipts]
    rcases List.mem_append.mp he with he | he
    · exact h.compacted e he hcompacted r hr hconcerns
    · exact absurd (hfull e he).compactedAt hcompacted

end

omit [FloatText] [FloatRead] [Digest] [IsoTime] [JsonSchema] in
lemma OutboxEvent.compact_eventId (e : OutboxEvent) (now : String) :
    (e.compact now).eventId = e.eventId := rfl

omit [IsoTime] [JsonSchema] in
lemma Store.Settled.move {c : Call} {s t : Store} (h : s.Settled) (hmove : OutboxMove c s t) :
    t.Settled := by
  cases hmove with
  | stays => exact h
  | registers hnew hwhole =>
      refine ⟨h.unique, h.whole, fun e he hcompacted r hr hconcerns => ?_⟩
      rcases List.mem_append.mp hr with hr | hr
      · exact h.compacted e he hcompacted r hr hconcerns
      · rw [List.mem_singleton] at hr
        subst hr
        exact absurd (hwhole e he hconcerns.1.symm hconcerns.2) hcompacted
  | acknowledges hevent hconsumer hacks =>
      obtain ⟨e, requirement, -, -, -, -, rfl⟩ := hacks
      refine ⟨h.unique, h.whole, fun e he hcompacted r hr hconcerns => ?_⟩
      obtain ⟨receipt, hreceipt, hacked⟩ := h.compacted e he hcompacted r hr hconcerns
      exact ⟨receipt, List.mem_append_left _ hreceipt, hacked⟩
  | @compacts env args s cutoff now =>
      refine ⟨?_, fun e he hopen => ?_, fun e he hcompacted r hr hconcerns => ?_⟩
      · rw [Store.EventsUnique, Store.updateOutbox,
          Table.keys_updateWhere fun e _ => e.compact_eventId now]
        exact h.unique
      · obtain ⟨old, hold, rfl⟩ := Table.mem_updateWhere.mp he
        split_ifs at hopen ⊢
        · cases hopen
        · exact h.whole old hold hopen
      · obtain ⟨old, hold, rfl⟩ := Table.mem_updateWhere.mp he
        split_ifs at hcompacted hconcerns ⊢ with htaken
        · obtain ⟨receipt, hreceipt, hid, hconsumer⟩ := htaken.2.2.2 r hr hconcerns
          exact ⟨receipt, hreceipt, hid, hconsumer⟩
        · exact h.compacted old hold hcompacted r hr hconcerns
  | reopens hretries hreopens =>
      obtain ⟨e, -, -, -, -, rfl⟩ := hreopens
      exact ⟨(List.filter_sublist.map _).nodup h.unique,
        fun e he => h.whole e (List.mem_of_mem_filter he),
        fun e he => h.compacted e (List.mem_of_mem_filter he)⟩

/-- **Every call keeps the outbox settled.** -/
theorem Store.Settled.call {s : Store} (h : s.Settled) (c : Call) : (s.after c).Settled := by
  obtain ⟨u, hmove, hputs⟩ := outbox_step s c
  exact (h.move hmove).puts hputs

lemma settled_run (calls : List Call) : (run Store.after Store.empty calls).Settled :=
  Calls.invariant_all (fun _ c h => h.call c) settled_empty calls

/-! ### Events that stay -/

/-- A call is a retry that reopens the run of an event, whose row goes. -/
def Store.Reopens (s : Store) (e : OutboxEvent) (c : Call) : Prop :=
  (∃ env args, c = .tool .handoffRetry env args ∧ RetriesRun s args e.runId) ∧
    e ∉ (s.after c).outbox

/-- Receipts and consumers stay. -/
lemma tables_stay (s : Store) (c : Call) :
    (∀ r ∈ s.requirements, r ∈ (s.after c).requirements) ∧
      ∀ r ∈ s.receipts, r ∈ (s.after c).receipts := by
  obtain ⟨u, hmove, hputs⟩ := outbox_step s c
  rw [hputs.requirements, hputs.receipts]
  cases hmove with
  | stays => exact ⟨fun _ h => h, fun _ h => h⟩
  | registers => exact ⟨fun _ h => List.mem_append_left _ h, fun _ h => h⟩
  | acknowledges hevent hconsumer hacks =>
      obtain ⟨_, _, -, -, -, -, rfl⟩ := hacks
      exact ⟨fun _ h => h, fun _ h => List.mem_append_left _ h⟩
  | compacts => exact ⟨fun _ h => h, fun _ h => h⟩
  | reopens hretries hreopens =>
      obtain ⟨_, -, -, -, -, rfl⟩ := hreopens
      exact ⟨fun _ h => h, fun _ h => h⟩

/-- **Whatever is called**, a compacted event was acknowledged by every consumer that it concerns, an
event that is not has its whole payload, and consumers and acknowledgements stay for good. -/
theorem settled_for_good (calls more : List Call) :
    let s := run Store.after Store.empty calls
    let t := run Store.after s more
    s.Settled ∧ s.requirements ⊆ t.requirements ∧ s.receipts ⊆ t.receipts := by
  intro s t
  have hstay := @Calls.trans_run _ _ Store.after
    (fun s t : Store => s.requirements ⊆ t.requirements ∧ s.receipts ⊆ t.receipts)
    (fun _ => ⟨fun _ => id, fun _ => id⟩)
    (fun h h' => ⟨List.Subset.trans h.1 h'.1, List.Subset.trans h.2 h'.2⟩)
    (fun s c => tables_stay s c) s more
  exact ⟨settled_run calls, hstay⟩

/-- An acknowledgement stays. -/
lemma Store.Acked.run {s : Store} {id k : String} (h : s.Acked id k) (calls : List Call) :
    (Calls.run Store.after s calls).Acked id k := by
  induction calls generalizing s with
  | nil => exact h
  | cons c rest ih =>
      obtain ⟨r, hr, hacked⟩ := h
      exact ih ⟨r, (tables_stay s c).2 r hr, hacked⟩

/-- An event that a consumer has not acknowledged stays what it is in a call that does not reopen
its run. -/
lemma kept_of_call {s : Store} {c : Call} {r : Requirement} {e : OutboxEvent}
    (hr : r ∈ s.requirements) (he : e ∈ s.outbox) (hconcerns : Store.Concerns r e)
    (hopen : ¬ (s.after c).Acked e.eventId r.consumerId) (hstays : ¬ s.Reopens e c) :
    e ∈ (s.after c).outbox := by
  by_contra hgone
  obtain ⟨u, hmove, hputs⟩ := outbox_step s c
  obtain ⟨new, hnew, -⟩ := hputs.outbox
  have hlost : e ∉ u.outbox := fun hmem => hgone (hnew ▸ List.mem_append_left _ hmem)
  cases hmove with
  | stays => exact hlost he
  | registers => exact hlost he
  | acknowledges hevent hconsumer hacks =>
      obtain ⟨_, _, -, -, -, -, rfl⟩ := hacks
      exact hlost he
  | @compacts env args s cutoff now =>
      by_cases htaken : s.Compactable cutoff e
      · obtain ⟨receipt, hreceipt, hacked⟩ := htaken.2.2.2 r hr hconcerns
        refine hopen ⟨receipt, ?_, hacked⟩
        rw [hputs.receipts]
        exact hreceipt
      · exact hlost (Table.mem_updateWhere.mpr ⟨e, he, if_neg htaken⟩)
  | @reopens env args s _ runId hretries hreopens =>
      obtain ⟨e', -, -, -, -, rfl⟩ := hreopens
      have hrun : e.runId = runId := by
        by_contra hne
        exact hlost (List.mem_filter.mpr ⟨he, by simp [hne]⟩)
      exact hstays ⟨⟨env, args, rfl, hrun ▸ hretries⟩, hgone⟩

/-- **An event that a consumer has not acknowledged stays what it is**, until its run is
reopened. -/
theorem kept_of_run {s : Store} {calls : List Call} {r : Requirement} {e : OutboxEvent}
    (hr : r ∈ s.requirements) (he : e ∈ s.outbox) (hconcerns : Store.Concerns r e)
    (hopen : ¬ (run Store.after s calls).Acked e.eventId r.consumerId)
    (hstays : Calls.Each Store.after (fun s c => ¬ s.Reopens e c) s calls) :
    r ∈ (run Store.after s calls).requirements ∧ e ∈ (run Store.after s calls).outbox := by
  induction calls generalizing s with
  | nil => exact ⟨hr, he⟩
  | cons c rest ih =>
      refine ih ((tables_stay s c).1 r hr) ?_ hopen hstays.2
      exact kept_of_call hr he hconcerns
        (fun hacked => hopen (hacked.run rest)) hstays.1

end Sop

end McpSurfaces
