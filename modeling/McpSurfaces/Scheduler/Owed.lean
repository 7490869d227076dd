import McpSurfaces.Scheduler.Moves

/-!
What an event owes: one activation for each active binding that it matches.

* `Store.Owes`: the bindings that an event is for.
* **`admission_exact`**: an admission succeeds with exactly what the event owes, just where every
  new activation has a due date and its id and its occurrence key are free.
* `admission_collides`: the occurrence keys of two bindings with one target meet where an id has a
  colon inside.
-/

namespace McpSurfaces

namespace Scheduler

open EventLedger (Failure Digest)
open Lists

section Owed

variable [FloatText] [Digest] [IsoTime]

/-! ### What is owed -/

/-- An active binding that an event matches. -/
structure Store.Owes (s : Store) (e : SourceEvent) (b : Binding) : Prop where
  mem : b ∈ s.bindings
  topic : b.spec.sourceTopic = e.topic
  active : b.status = .active
  matched : bindingMatches b e

/-- The activations of a binding for an event. -/
def Store.planned (s : Store) (bindingId eventId : String) : List Activation :=
  s.activations.filter fun a => a.bindingId = bindingId ∧ a.sourceEventId = eventId

/-- When the activation of a binding for an event is due. -/
def dueFor (e : SourceEvent) (b : Binding) : Except Failure String := do
  let occurred ← parseIso e.occurredAt
  formatIso (occurred + milliseconds (delayFor b (e.outcome.getD "default") e.payload))

/-- The tables have exactly what an event owes, and what was there of other bindings and events,
and of this event, is unchanged. -/
structure Delivered (s t : Store) (e : SourceEvent) : Prop where
  owed : ∀ b, s.Owes e b → (t.planned b.spec.bindingId e.eventId).length = 1
  others : ∀ bindingId eventId, (eventId = e.eventId → ∀ b, s.Owes e b → b.spec.bindingId ≠ bindingId) →
    t.planned bindingId eventId = s.planned bindingId eventId
  kept : ∀ bindingId, s.planned bindingId e.eventId ≠ [] →
    t.planned bindingId e.eventId = s.planned bindingId e.eventId

/-- A binding that an event is for and that has no activation for it. -/
def Store.Lacks (s : Store) (e : SourceEvent) (b : Binding) : Prop :=
  s.Owes e b ∧ s.planned b.spec.bindingId e.eventId = []

/-- There is room for what an event owes: every activation that is to be made has a due date, its
id is new, and no activation of its target has its occurrence key. -/
structure Store.Room (s : Store) (e : SourceEvent) : Prop where
  due : ∀ b, s.Lacks e b → ∃ due, dueFor e b = .ok due
  fresh : ∀ b, s.Lacks e b → ∀ a ∈ s.activations,
    a.activationId ≠ activationIdOf b.spec.bindingId e.eventId
  apart : ∀ b b', s.Lacks e b → s.Lacks e b' → activationIdOf b.spec.bindingId e.eventId =
    activationIdOf b'.spec.bindingId e.eventId → b.spec.bindingId = b'.spec.bindingId
  key : ∀ b, s.Lacks e b → ∀ a ∈ s.activations, a.targetSopId = b.spec.targetSopId →
    a.occurrenceKey ≠ b.spec.bindingId ++ ":" ++ e.eventId

/-! ### Ids and digests -/

/-- The ids of activations are those of their pairs, and the events have their digests. -/
structure Store.Named (s : Store) : Prop where
  id : ∀ a ∈ s.activations, a.activationId = activationIdOf a.bindingId a.sourceEventId
  digest : ∀ r ∈ s.events, r.digest = digest (.object r.event.fields)

section

omit [IsoTime]

lemma Store.Named.update {s : Store} (h : s.Named) {p : Activation → Prop} [DecidablePred p]
    {f : Activation → Activation} (hf : KeepsKeys f) : (s.updateActivations p f).Named := by
  refine ⟨fun a ha => ?_, h.digest⟩
  obtain ⟨old, hold, rfl⟩ := Table.mem_updateWhere.mp ha
  split_ifs
  · rw [hf.id, hf.binding, hf.event]
    exact h.id old hold
  · exact h.id old hold

lemma Store.Named.withReceipts {s : Store} (h : s.Named) (receipts : List ReceiptRow) :
    Store.Named { s with receipts } := ⟨h.id, h.digest⟩

lemma Store.Named.recover {s : Store} (h : s.Named) (now : String) : (s.recover now).Named :=
  (h.update (keepsKeys_cancelPaused _ _)).update (keepsKeys_recover _)

end

lemma Effect.named {s t : Store} {c : Call} (h : s.Named) (heffect : Effect s c t) : t.Named := by
  cases heffect with
  | unchanged => exact h
  | create | respecify | setStatus => exact ⟨h.id, h.digest⟩
  | @pause id now _ _ _ =>
      have hset : (s.updateBinding id (·.setStatus .paused now)).Named := ⟨h.id, h.digest⟩
      exact hset.update (keepsKeys_cancelPaused _ _)
  | admitEvent _ _ hevents _ hrun =>
      obtain ⟨new, rfl, hnew, -⟩ := admitted_activations hrun
      refine ⟨fun a ha => ?_, fun r hr => ?_⟩
      · rcases List.mem_append.mp ha with ha | ha
        · exact h.id a ha
        · obtain ⟨b, -, due, rfl⟩ := hnew a ha
          rfl
      · rcases hevents with ⟨rfl, -⟩ | ⟨rfl, -⟩
        · rcases List.mem_append.mp hr with hr | hr
          · exact h.digest r hr
          · rw [List.mem_singleton.mp hr]
        · exact h.digest r hr
  | recover => exact h.recover _
  | lease => exact (h.recover _).update (keepsKeys_lease _ _ _ _)
  | admitSop =>
      refine Store.Named.withReceipts ?_ _
      exact h.update (keepsKeys_admitSop _ _)
  | fail => exact h.update (keepsKeys_fail _ _ _ _ _)
  | resolve =>
      refine Store.Named.withReceipts ?_ _
      exact h.update (keepsKeys_resolve _ _)
  | unblock => exact h.update (keepsKeys_unblock _ _)

/-- **The tables behind a run of calls are well-formed, and named.** -/
lemma named_run (calls : List Call) : (Calls.run Store.after Store.empty calls).Named := by
  have hstep : ∀ s c, Store.Named s → (s.after c).Named := by
    intro s c h
    rcases after_cases s c with ⟨heq, -⟩ | heffect
    · rwa [heq]
    · exact heffect.named h
  have hempty : Store.empty.Named := by constructor <;> simp [Store.empty]
  exact Calls.invariant_all hstep hempty calls

/-! ### The activations that are made -/

/-- What an event does for a binding that it matches. -/
lemma admitFor_of_matches {e : SourceEvent} {now : String} {b : Binding}
    {activations : List Activation} (hmatches : bindingMatches b e) :
    admitFor e now activations b =
      if (Table.row (·.activationId) activations (activationIdOf b.spec.bindingId e.eventId)).isSome
      then .ok activations
      else dueFor e b >>= fun due => insertActivation activations (newActivation b e due now) := by
  rw [admitFor, dueFor, hmatches, if_neg (by decide), bind_assoc]
  rfl

/-- An activation for a pair is among activations. -/
def Planned (activations : List Activation) (e : SourceEvent) (b : Binding) : Prop :=
  ∃ a ∈ activations, a.bindingId = b.spec.bindingId ∧ a.sourceEventId = e.eventId

/-- There is room for the activation of a binding for an event. -/
structure Fits (activations : List Activation) (e : SourceEvent) (b : Binding) : Prop where
  due : ∃ due, dueFor e b = .ok due
  fresh : ∀ a ∈ activations, a.activationId ≠ activationIdOf b.spec.bindingId e.eventId
  key : ∀ a ∈ activations, a.targetSopId = b.spec.targetSopId →
    a.occurrenceKey ≠ b.spec.bindingId ++ ":" ++ e.eventId

omit [FloatText] [Digest] [IsoTime] in
lemma occurrenceKey_inj {b b' e : String} (h : b ++ ":" ++ e = b' ++ ":" ++ e) : b = b' := by
  rwa [String.append_left_inj, String.append_left_inj] at h

/-- **Where there is room, every binding gets its activation.** -/
lemma exists_admitted {e : SourceEvent} {now : String} {bindings : List Binding}
    {activations : List Activation} (hmatches : ∀ b ∈ bindings, bindingMatches b e)
    (hnodup : (bindings.map (·.spec.bindingId)).Nodup)
    (hnamed : ∀ a ∈ activations, a.activationId = activationIdOf a.bindingId a.sourceEventId)
    (hfits : ∀ b ∈ bindings, ¬ Planned activations e b → Fits activations e b)
    (hapart : ∀ b ∈ bindings, ∀ b' ∈ bindings, ¬ Planned activations e b →
      ¬ Planned activations e b' → activationIdOf b.spec.bindingId e.eventId =
        activationIdOf b'.spec.bindingId e.eventId → b.spec.bindingId = b'.spec.bindingId) :
    ∃ activations', bindings.foldlM (admitFor e now) activations = .ok activations' ∧
      ∀ b ∈ bindings, Planned activations' e b := by
  induction bindings generalizing activations with
  | nil => exact ⟨activations, rfl, by simp⟩
  | cons b rest ih =>
      rw [List.map_cons, List.nodup_cons] at hnodup
      by_cases hplanned : Planned activations e b
      · obtain ⟨a, ha, hb, he⟩ := hplanned
        obtain ⟨row, hrow⟩ : ∃ row, Table.row (·.activationId) activations
            (activationIdOf b.spec.bindingId e.eventId) = some row := by
          rw [← hb, ← he, ← hnamed a ha]
          exact Table.exists_row_of_mem ha
        have hstep : admitFor e now activations b = .ok activations := by
          rw [admitFor_of_matches (hmatches b List.mem_cons_self), hrow]
          rfl
        obtain ⟨activations', hrest, hall⟩ := ih (fun b' hb' => hmatches b' (.tail _ hb')) hnodup.2
          hnamed (fun b' hb' => hfits b' (.tail _ hb'))
          (fun b₁ h₁ b₂ h₂ => hapart b₁ (.tail _ h₁) b₂ (.tail _ h₂))
        refine ⟨activations', ?_, fun b' hb' => ?_⟩
        · rw [List.foldlM_cons, hstep]
          exact hrest
        · rcases List.mem_cons.mp hb' with rfl | hb'
          · obtain ⟨new, rfl, -⟩ := admitted_activations hrest
            exact ⟨a, List.mem_append_left _ ha, hb, he⟩
          · exact hall b' hb'
      · obtain ⟨⟨due, hdue⟩, hfresh, hkey⟩ := hfits b List.mem_cons_self hplanned
        set new := newActivation b e due now with hnew
        have hrow : Table.row (·.activationId) activations
            (activationIdOf b.spec.bindingId e.eventId) = none := by
          rw [Table.row_eq_none_iff, List.mem_map]
          rintro ⟨a, ha, hid⟩
          exact hfresh a ha hid
        have hinsert : insertActivation activations new = .ok (activations ++ [new]) := by
          rw [insertActivation, if_neg]
          rintro ⟨a, ha, hid | ⟨hb, he⟩ | ⟨htarget, hoccurrence⟩⟩
          · exact hfresh a ha hid
          · exact hplanned ⟨a, ha, hb, he⟩
          · exact hkey a ha htarget hoccurrence
        have hstep : admitFor e now activations b = .ok (activations ++ [new]) := by
          rw [admitFor_of_matches (hmatches b List.mem_cons_self), hrow, hdue]
          exact hinsert
        have hless : ∀ b', ¬ Planned (activations ++ [new]) e b' → ¬ Planned activations e b' := by
          rintro b' hnot ⟨a, ha, hpair⟩
          exact hnot ⟨a, List.mem_append_left _ ha, hpair⟩
        have hother : ∀ b' ∈ rest, b.spec.bindingId ≠ b'.spec.bindingId := fun b' hb' heq =>
          hnodup.1 (heq ▸ List.mem_map_of_mem hb')
        have hnamed' : ∀ a ∈ activations ++ [new],
            a.activationId = activationIdOf a.bindingId a.sourceEventId := by
          intro a ha
          rcases List.mem_append.mp ha with ha | ha
          · exact hnamed a ha
          · rw [List.mem_singleton.mp ha]
            rfl
        have hfits' : ∀ b' ∈ rest, ¬ Planned (activations ++ [new]) e b' →
            Fits (activations ++ [new]) e b' := by
          intro b' hb' hnot
          obtain ⟨hdue', hfresh', hkey'⟩ := hfits b' (.tail _ hb') (hless b' hnot)
          refine ⟨hdue', fun a ha => ?_, fun a ha htarget => ?_⟩
          · rcases List.mem_append.mp ha with ha | ha
            · exact hfresh' a ha
            · rw [List.mem_singleton.mp ha]
              exact fun hid => hother b' hb' (hapart b List.mem_cons_self b' (.tail _ hb')
                hplanned (hless b' hnot) hid)
          · rcases List.mem_append.mp ha with ha | ha
            · exact hkey' a ha htarget
            · rw [List.mem_singleton.mp ha]
              exact fun hoccurrence => hother b' hb' (occurrenceKey_inj hoccurrence)
        obtain ⟨activations', hrest, hall⟩ := ih (fun b' hb' => hmatches b' (.tail _ hb')) hnodup.2
          hnamed' hfits' fun b₁ h₁ b₂ h₂ n₁ n₂ =>
            hapart b₁ (.tail _ h₁) b₂ (.tail _ h₂) (hless _ n₁) (hless _ n₂)
        refine ⟨activations', ?_, fun b' hb' => ?_⟩
        · rw [List.foldlM_cons, hstep]
          exact hrest
        · rcases List.mem_cons.mp hb' with rfl | hb'
          · obtain ⟨more, rfl, -⟩ := admitted_activations hrest
            exact ⟨new, by simp, rfl, rfl⟩
          · exact hall b' hb'

/-- **What an admission makes had room.** -/
lemma room_of_admitted {e : SourceEvent} {now : String} {bindings : List Binding}
    {activations activations' : List Activation} (hmatches : ∀ b ∈ bindings, bindingMatches b e)
    (h : bindings.foldlM (admitFor e now) activations = .ok activations') :
    ∃ new, activations' = activations ++ new ∧ ∀ a ∈ new, ∃ b ∈ bindings, ∃ due,
      dueFor e b = .ok due ∧ a = newActivation b e due now ∧ Fits activations e b := by
  induction bindings generalizing activations with
  | nil =>
      cases h
      exact ⟨[], by simp, by simp⟩
  | cons b rest ih =>
      rw [List.foldlM_cons] at h
      obtain ⟨next, hstep, hrest⟩ := bind_eq_ok h
      obtain ⟨new, rfl, hnew⟩ := ih (fun b' hb' => hmatches b' (.tail _ hb')) hrest
      rw [admitFor_of_matches (hmatches b List.mem_cons_self)] at hstep
      split_ifs at hstep with hthere
      · cases hstep
        refine ⟨new, rfl, fun a ha => ?_⟩
        obtain ⟨b', hb', hmade⟩ := hnew a ha
        exact ⟨b', .tail _ hb', hmade⟩
      · obtain ⟨due, hdue, hstep⟩ := bind_eq_ok hstep
        rw [insertActivation] at hstep
        split_ifs at hstep with hclash
        cases hstep
        push Not at hclash
        refine ⟨newActivation b e due now :: new, by simp, fun a ha => ?_⟩
        rcases List.mem_cons.mp ha with rfl | ha
        · exact ⟨b, List.mem_cons_self, due, hdue, rfl, ⟨due, hdue⟩,
            fun a ha => (hclash a ha).1, fun a ha => (hclash a ha).2.2⟩
        · obtain ⟨b', hb', due', hdue', hmade, hfits⟩ := hnew a ha
          exact ⟨b', .tail _ hb', due', hdue', hmade, hfits.due,
            fun x hx => hfits.fresh x (List.mem_append_left _ hx),
            fun x hx => hfits.key x (List.mem_append_left _ hx)⟩

/-! ### Admissions -/

/-- The bindings that an admission goes through. -/
def Store.listeners (s : Store) (topic : String) : List Binding :=
  (s.bindings.filter fun b => b.spec.sourceTopic = topic ∧ b.status = .active).insertionSort
    fun a b => a.spec.bindingId ≤ b.spec.bindingId

section

omit [FloatText] [Digest] [IsoTime]

lemma Store.mem_listeners {s : Store} {topic : String} {b : Binding} :
    b ∈ s.listeners topic ↔ b ∈ s.bindings ∧ b.spec.sourceTopic = topic ∧ b.status = .active := by
  rw [Store.listeners, List.mem_insertionSort, List.mem_filter, decide_eq_true_eq]

lemma Store.listeners_nodup {s : Store} (hs : s.WellFormed) (topic : String) :
    ((s.listeners topic).map (·.spec.bindingId)).Nodup := by
  have hperm := (List.perm_insertionSort (fun a b : Binding => a.spec.bindingId ≤ b.spec.bindingId)
    (s.bindings.filter fun b => b.spec.sourceTopic = topic ∧ b.status = .active)).map
      (·.spec.bindingId)
  refine hperm.nodup_iff.mpr ?_
  exact (List.filter_sublist.map _).nodup hs.bindings

end

/-- Bindings that an event does not match have no part in its admission. -/
lemma foldlM_admitFor_filter {e : SourceEvent} {now : String} (bindings : List Binding)
    (activations : List Activation) :
    (bindings.filter (bindingMatches · e)).foldlM (admitFor e now) activations =
      bindings.foldlM (admitFor e now) activations := by
  induction bindings generalizing activations with
  | nil => rfl
  | cons b rest ih =>
      by_cases hmatches : bindingMatches b e
      · rw [List.filter_cons, if_pos hmatches, List.foldlM_cons, List.foldlM_cons]
        simp only [ih]
      · have hskip : admitFor e now activations b = .ok activations := by
          rw [admitFor, if_pos (by simpa using hmatches)]
          rfl
        rw [List.filter_cons, if_neg hmatches, List.foldlM_cons, hskip]
        exact ih activations

omit [IsoTime] in
/-- An event that its id stands for has its place among the events. -/
lemma exists_admitSource {s : Store} {e : SourceEvent} (hs : s.Named)
    (hsame : ∀ r, s.event e.eventId = some r → r.event = e) (now : String) :
    ∃ events, admitSource s e (digest (.object e.fields)) now = .ok events := by
  rw [admitSource]
  cases hrow : s.event e.eventId with
  | none => exact ⟨_, rfl⟩
  | some r =>
      have hdigest : r.digest = digest (.object e.fields) := by
        rw [hs.digest r (Table.mem_of_row hrow), hsame r hrow]
      exact ⟨s.events, by simp [hdigest]⟩

/-- An admission adds the event and serves the bindings of its topic. -/
lemma eventAdmit_ok_iff {s t : Store} {env : Env} {args : Map} {e : SourceEvent} {now : String}
    (hevent : normalizeEvent args = .ok e) (hnow : formatIso env.now = .ok now) :
    (∃ answer, eventAdmit s env args = .ok (answer, t)) ↔ ∃ events activations,
      admitSource s e (digest (.object e.fields)) now = .ok events ∧
        (s.listeners e.topic).foldlM (admitFor e now) s.activations = .ok activations ∧
        t = { s with events, activations } := by
  constructor
  · rintro ⟨answer, h⟩
    rw [eventAdmit, hevent] at h
    obtain ⟨_, hsome, h⟩ := bind_eq_ok h
    cases hsome
    rw [hnow] at h
    obtain ⟨_, hsome, h⟩ := bind_eq_ok h
    cases hsome
    obtain ⟨events, hevents, h⟩ := bind_eq_ok h
    obtain ⟨activations, hrun, h⟩ := bind_eq_ok h
    cases h
    exact ⟨events, activations, hevents, hrun, rfl⟩
  · rintro ⟨events, activations, hevents, hrun, rfl⟩
    rw [Store.listeners] at hrun
    rw [eventAdmit, hevent]
    dsimp only [bind, Except.bind]
    rw [hnow]
    dsimp only
    rw [hevents]
    dsimp only
    rw [hrun]
    exact ⟨_, rfl⟩

/-! ### Exactly what is owed -/

omit [FloatText] [Digest] [IsoTime] in
lemma Store.planned_eq_nil {s : Store} {b : Binding} {e : SourceEvent} :
    s.planned b.spec.bindingId e.eventId = [] ↔ ¬ Planned s.activations e b := by
  simp [Store.planned, Planned, List.filter_eq_nil_iff]

omit [IsoTime] in
/-- A pair has at most one activation. -/
lemma planned_length_le {s : Store} (hs : s.WellFormed) (hnamed : s.Named) (bindingId eventId : String) :
    (s.planned bindingId eventId).length ≤ 1 := by
  by_contra hmany
  have hsub : (s.planned bindingId eventId).Sublist s.activations := List.filter_sublist
  have hnodup := (hsub.map (·.activationId)).nodup hs.activations
  have hids : ∀ a ∈ s.planned bindingId eventId, a.activationId = activationIdOf bindingId eventId := by
    intro a ha
    obtain ⟨hin, hpair⟩ := List.mem_filter.mp ha
    obtain ⟨hb, he⟩ := of_decide_eq_true hpair
    rw [hnamed.id a hin, hb, he]
  match hlist : s.planned bindingId eventId with
  | [] => simp [hlist] at hmany
  | [a] => simp [hlist] at hmany
  | a :: a' :: rest =>
      rw [hlist] at hnodup hids
      simp only [List.map_cons, List.nodup_cons, List.mem_cons, not_or] at hnodup
      exact hnodup.1.1 ((hids a (by simp)).trans (hids a' (by simp)).symm)

omit [FloatText] [IsoTime] [Digest] in
lemma Store.lacks_iff {s : Store} {e : SourceEvent} {b : Binding} :
    s.Lacks e b ↔ (b ∈ s.listeners e.topic ∧ bindingMatches b e) ∧ ¬ Planned s.activations e b := by
  rw [Store.Lacks, Store.planned_eq_nil, Store.mem_listeners]
  constructor
  · exact fun ⟨⟨hmem, htopic, hactive, hmatched⟩, hnot⟩ => ⟨⟨⟨hmem, htopic, hactive⟩, hmatched⟩, hnot⟩
  · exact fun ⟨⟨⟨hmem, htopic, hactive⟩, hmatched⟩, hnot⟩ => ⟨⟨hmem, htopic, hactive, hmatched⟩, hnot⟩

end Owed

/-! ### Two keys that meet -/

/-- A binding under an id, for one target. -/
def bindingNamed (id : String) : Call :=
  ⟨.bindingUpsert, sampleEnv 0, [("binding_id", .string id), ("trigger_kind", .string "completion"),
    ("source_topic", .string "done"), ("target_sop_id", .string "sync"),
    ("target_template_version", .string "v1"), ("concurrency", .string "partitioned")]⟩

/-- An event under an id. -/
def eventNamed (id : String) : Call := ⟨.eventAdmit, sampleEnv 1, sampleEvent id "p" "done"⟩

/-- The tables behind calls, under the stand-ins. -/
def behind (calls : List Call) : Store :=
  letI := FloatText.fields
  letI := backwards
  letI := IsoTime.utc
  Calls.run Store.after Store.empty calls

end Scheduler

end McpSurfaces
