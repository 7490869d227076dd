import McpSurfaces.Sop.OutboxMoves

/-!
What the outbox delivers to its consumers.

* `mem_outboxList`: which events a consumer finds on its list.
* **`undelivered_kept`**: an event that concerns a consumer keeps its whole payload until the
  consumer has acknowledged it or its run is reopened, and it is on the list of the consumer
  exactly when the clock of the list is past it and not too many events come before it.
* `undelivered_hidden`: in the millisecond of its creation an event is on no list, as the list
  prints its clock with more digits.
-/

namespace McpSurfaces

namespace Sop

open EventLedger (Digest)
open Calls (run)
open Lists

/-! ### The order of events -/

/-- Texts make a consistent comparison. -/
lemma consistent_text {α : Type*} (key : α → String) (xs : List α) :
    Consistent (fun a b => compare (key a) (key b)) xs where
  swap _ _ _ _ := Std.OrientedOrd.eq_swap
  trans _ _ _ _ _ _ hab hbc := Ordering.isLE_iff_ne_gt.mp
    (Std.TransOrd.isLE_trans (Ordering.isLE_iff_ne_gt.mpr hab) (Ordering.isLE_iff_ne_gt.mpr hbc))

lemma eventOrder_consistent (events : List OutboxEvent) : Consistent eventOrder events :=
  (consistent_text OutboxEvent.createdAt events).lex (consistent_text OutboxEvent.eventId events)

/-- Events with different names are ordered strictly. -/
lemma eq_of_eventOrder {events : List OutboxEvent} (hunique : (events.map (·.eventId)).Nodup)
    {a b : OutboxEvent} (ha : a ∈ events) (hb : b ∈ events) (h : eventOrder a b = .eq) : a = b := by
  rw [eventOrder, Ordering.then_eq_eq] at h
  exact List.inj_on_of_nodup_map hunique ha hb (Std.LawfulEqOrd.eq_of_compare h.2)

/-! ### The list of a consumer -/

/-- The events on the list of a consumer that come before an event. -/
def Store.earlier (s : Store) (consumer clock : String) (e : OutboxEvent) : List OutboxEvent :=
  s.outbox.filter fun x => s.Listed consumer clock x ∧ eventOrder x e = .lt

section Delivery

variable [IsoTime]

/-- **What is on the list of a consumer**: the events that are listed for it, as far as fewer than
the limit come before them. -/
lemma mem_outboxList {s : Store} {now : Instant} {clock consumer : String} {args : Map}
    {page : List OutboxEvent} {e : OutboxEvent} (hunique : s.EventsUnique)
    (hclock : rfc3339 now = some clock) (hconsumer : unblank (args.get "consumer_id") = some consumer)
    (hpage : outboxList now args s = .ok page) :
    e ∈ page ↔ e ∈ s.outbox ∧ s.Listed consumer clock e ∧
      (s.earlier consumer clock e).length < listLimit args := by
  unfold outboxList at hpage
  rw [hconsumer] at hpage
  obtain ⟨_, hnamed, hpage⟩ := bind_eq_ok hpage
  cases hnamed
  obtain ⟨-, hpage⟩ := guard_ok hpage
  obtain ⟨-, hpage⟩ := guard_ok hpage
  rw [hclock] at hpage
  cases hpage
  set listed := s.outbox.filter (s.Listed consumer clock) with hlisted
  have hsub : ∀ x ∈ listed, x ∈ s.outbox := fun x hx => (List.mem_filter.mp hx).1
  have hmem : e ∈ listed ↔ e ∈ s.outbox ∧ s.Listed consumer clock e := by
    rw [hlisted, List.mem_filter, decide_eq_true_eq]
  have hearlier : (listed.filter fun x => eventOrder x e = .lt) = s.earlier consumer clock e := by
    rw [hlisted, List.filter_filter, Store.earlier]
    refine List.filter_congr fun x _ => ?_
    simp only [Bool.decide_and]
    exact Bool.and_comm _ _
  constructor
  · intro he
    have hin : e ∈ listed := (mem_sortBy eventOrder).mp (List.mem_of_mem_take he)
    rw [Table.mem_take_sortBy (eventOrder_consistent listed) (hunique.of_map _ |>.filter _)
      (fun a ha b hb => eq_of_eventOrder hunique (hsub a ha) (hsub b hb)) hin, hearlier] at he
    exact ⟨(hmem.mp hin).1, (hmem.mp hin).2, he⟩
  · rintro ⟨he, hfor, hroom⟩
    have hin := hmem.mpr ⟨he, hfor⟩
    rw [Table.mem_take_sortBy (eventOrder_consistent listed) (hunique.of_map _ |>.filter _)
      (fun a ha b hb => eq_of_eventOrder hunique (hsub a ha) (hsub b hb)) hin, hearlier]
    exact hroom

/-- A consumer that is registered gets its list, where its clock has a date. -/
lemma exists_outboxList {s : Store} {now : Instant} {clock : String} {args : Map} {r : Requirement}
    (hr : r ∈ s.requirements) (hclock : rfc3339 now = some clock)
    (hconsumer : unblank (args.get "consumer_id") = some r.consumerId)
    (htopic : ∀ topic ∈ unblank (args.get "topic"), topic = terminalTopic) :
    ∃ page, outboxList now args s = .ok page := by
  unfold outboxList
  have htopic' : ¬ (unblank (args.get "topic")).any (· ≠ terminalTopic) := by
    intro hany
    obtain ⟨topic, hin, hne⟩ := (Option.any_eq_true _ _).mp hany
    simp only [ne_eq, decide_not, Bool.not_eq_eq_eq_not, Bool.not_true, decide_eq_false_iff_not] at hne
    exact hne (htopic topic hin)
  have hregistered : ¬ ∀ other ∈ s.requirements, other.consumerId ≠ r.consumerId :=
    fun hnone => hnone r hr rfl
  rw [hconsumer, hclock]
  dsimp only [bind, Except.bind]
  rw [if_neg htopic', if_neg hregistered]
  exact ⟨_, rfl⟩

variable [FloatText] [FloatRead] [Digest] [JsonSchema]

/-- **An undelivered event is kept, and listed.** In every run of calls, an event that concerns a
registered consumer and that the consumer has not acknowledged keeps its whole payload, in any
order of registrations, acknowledgements, compactions and completions, until a retry reopens its
run. A list of the consumer has it exactly when the clock of the list, as it is printed, is not
before the event, and fewer events than the limit come before it. -/
theorem undelivered_kept (calls more : List Call) (r : Requirement) (e : OutboxEvent)
    (hr : r ∈ (run Store.after Store.empty calls).requirements)
    (he : e ∈ (run Store.after Store.empty calls).outbox) (hconcerns : Store.Concerns r e)
    (hopen : ¬ (run Store.after Store.empty (calls ++ more)).Acked e.eventId r.consumerId)
    (hstays : Calls.Each Store.after (fun s c => ¬ s.Reopens e c)
      (run Store.after Store.empty calls) more) :
    let t := run Store.after Store.empty (calls ++ more)
    (e.Full ∧ e ∈ t.outbox ∧ r ∈ t.requirements) ∧
    ∀ now clock args, rfc3339 now = some clock →
      unblank (args.get "consumer_id") = some r.consumerId →
      (∀ topic ∈ unblank (args.get "topic"), topic = terminalTopic) →
      ∃ page, outboxList now args t = .ok page ∧
        (e ∈ page ↔ e.availableAt ≤ clock ∧
          (t.earlier r.consumerId clock e).length < listLimit args) := by
  intro t
  have hsettled : t.Settled := settled_run (calls ++ more)
  rw [Calls.run_append] at hopen
  obtain ⟨hr', he'⟩ := kept_of_run hr he hconcerns hopen hstays
  rw [← Calls.run_append] at hopen hr' he'
  have hopened : e.compactedAt = none := by
    by_contra hcompacted
    exact hopen (hsettled.compacted e he' hcompacted r hr' hconcerns)
  refine ⟨⟨hsettled.whole e he' hopened, he', hr'⟩, fun now clock args hclock hconsumer htopic => ?_⟩
  obtain ⟨page, hpage⟩ := exists_outboxList hr' hclock hconsumer htopic
  refine ⟨page, hpage, ?_⟩
  rw [mem_outboxList hsettled.unique hclock hconsumer hpage]
  have hlisted : t.Listed r.consumerId clock e ↔ e.availableAt ≤ clock := by
    constructor
    · exact fun h => h.2.1
    · exact fun h => ⟨⟨r, hr', rfl, hconcerns⟩, h, fun receipt hreceipt hacked =>
        hopen ⟨receipt, hreceipt, hacked⟩⟩
  rw [hlisted]
  exact ⟨fun h => h.2, fun h => ⟨he', h⟩⟩

end Delivery

/-! ### A run that ends as it starts -/

/-- A run of a step of the engine, and a reader of its event. -/
def noticed : List Call := sampleStart .engine ++ [sampleRegistration 0 "reader"]

/-- A compaction of all that came before the next day. -/
def sweep : Call :=
  .tool .outboxCompact (sampleEnv 1000 "") [("before", .string "2026-01-02T00:00:00.000Z")]

/-- The tables behind a run of calls, under the stand-ins. -/
def sampleStore (calls : List Call) : Store :=
  letI := FloatText.fields
  letI := asWritten
  letI := oneName
  letI := IsoTime.utc
  letI := lenient
  run Store.after Store.empty calls

/-- The event of the run is whole behind a compaction. -/
theorem undelivered_swept :
    letI := FloatText.fields
    letI := asWritten
    letI := oneName
    ∃ e ∈ (sampleStore noticed).outbox, e.Full ∧ e ∈ (sampleStore (noticed ++ [sweep])).outbox := by
  obtain ⟨r, hr, e, he, hconcerns⟩ : ∃ r ∈ (sampleStore noticed).requirements,
      ∃ e ∈ (sampleStore noticed).outbox, Store.Concerns r e := by decide +kernel
  have hreceipts : (sampleStore (noticed ++ [sweep])).receipts = [] :=
    List.length_eq_zero_iff.mp (by decide +kernel)
  have hkept := @undelivered_kept IsoTime.utc FloatText.fields asWritten oneName lenient noticed
    [sweep] r e hr he hconcerns ?_ ⟨?_, trivial⟩
  · exact ⟨e, he, hkept.1.1, hkept.1.2.1⟩
  · rintro ⟨receipt, hreceipt, -⟩
    change receipt ∈ (sampleStore (noticed ++ [sweep])).receipts at hreceipt
    rw [hreceipts] at hreceipt
    cases hreceipt
  · rintro ⟨⟨_, _, hretry, -⟩, -⟩
    cases hretry

/-- Half a millisecond behind its creation the event is on no list of the reader. -/
theorem undelivered_hidden :
    letI := FloatText.fields
    letI := asWritten
    letI := oneName
    letI := IsoTime.utc
    letI := lenient
    ¬ ∀ (calls : List Call) (r : Requirement) (e : OutboxEvent),
      r ∈ (run Store.after Store.empty calls).requirements →
      e ∈ (run Store.after Store.empty calls).outbox → Store.Concerns r e →
      ¬ (run Store.after Store.empty calls).Acked e.eventId r.consumerId →
      ∀ now, (∀ c ∈ calls, c.NotAfter now) →
        ∃ limit page, outboxList now [("consumer_id", .string r.consumerId), ("limit", .ofNat limit)]
          (run Store.after Store.empty calls) = .ok page ∧ e ∈ page := by
  intro h
  obtain ⟨r, hr, e, he, hconsumer, hconcerns, hlater⟩ : ∃ r ∈ (sampleStore noticed).requirements,
      ∃ e ∈ (sampleStore noticed).outbox, r.consumerId = "reader" ∧ Store.Concerns r e ∧
        ¬ e.availableAt ≤ "2026-01-01T00:00:00.0005Z" := by decide +kernel
  have hreceipts : (sampleStore noticed).receipts = [] :=
    List.length_eq_zero_iff.mp (by decide +kernel)
  have hsettled := @settled_run FloatText.fields asWritten oneName IsoTime.utc lenient noticed
  have hunacked : ¬ (sampleStore noticed).Acked e.eventId r.consumerId := by
    rintro ⟨receipt, hreceipt, -⟩
    rw [hreceipts] at hreceipt
    cases hreceipt
  have hlate : ∀ c ∈ noticed, c.NotAfter (milliseconds 1767225600000 + 500000) := by
    intro c hc
    simp only [noticed, sampleStart, sampleRegistration, List.cons_append, List.nil_append,
      List.mem_cons, List.not_mem_nil, or_false] at hc
    rcases hc with rfl | rfl | rfl
    · trivial
    · exact (by decide +kernel : (sampleEnv 0 "").now ≤ milliseconds 1767225600000 + 500000)
    · exact (by decide +kernel : (sampleEnv 0 "").now ≤ milliseconds 1767225600000 + 500000)
  obtain ⟨limit, page, hpage, hin⟩ := h noticed r e hr he hconcerns hunacked
    (milliseconds 1767225600000 + 500000) hlate
  have hconsumer' : unblank (OrderedMap.get [("consumer_id", .string r.consumerId),
      ("limit", .ofNat limit)] "consumer_id") = some r.consumerId := by
    rw [hconsumer]
    exact (by decide +kernel : unblank (some (.string "reader")) = some "reader")
  have hclock : @rfc3339 IsoTime.utc (milliseconds 1767225600000 + 500000)
      = some "2026-01-01T00:00:00.0005Z" := by decide +kernel
  have hunique : (sampleStore noticed).EventsUnique := @Store.Settled.unique FloatText.fields
    asWritten oneName _ hsettled
  have hlisted := (@mem_outboxList IsoTime.utc (sampleStore noticed) _ _ _ _ _ _
    hunique hclock hconsumer' hpage).mp hin
  exact hlater hlisted.2.1.2.1

end Sop

end McpSurfaces
