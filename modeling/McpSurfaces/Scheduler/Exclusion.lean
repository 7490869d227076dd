import McpSurfaces.Scheduler.Moves

/-!
Mutual exclusion of activations. A claim compares the partition keys that the activations got
when they were created, under the concurrency that their binding had at that moment.

* `Rekeyed`: what a run must not do, to give a binding another concurrency while an unfinished
  activation of it carries a key of the old one.
* `Apart`: activations of one binding and one key are never held together; every call keeps it.
* **`exclusive`**: in a run without `Rekeyed` a singleton binding never has two activations that
  are leased or admitted, and a partitioned one never two of one partition of events.
* `changed_concurrency`: after a change to `singleton` two activations are leased.
* **`taken_stay`**: what a run has admitted or ended is never claimed again.
-/

namespace McpSurfaces

namespace Scheduler

open EventLedger (Failure Digest)
open Lists

section Exclusion

variable [FloatText] [Digest] [IsoTime]

/-- An activation is in use at a time: admitted, or leased under a lease that is not over. -/
def Activation.InUse (a : Activation) (now : String) : Prop :=
  a.status = .leased ∧ ¬ a.ExpiredAt now ∨ a.status = .admitted

instance (a : Activation) (now : String) : Decidable (a.InUse now) :=
  inferInstanceAs (Decidable (_ ∧ ¬ _ ∨ _))

omit [FloatText] [Digest] [IsoTime] in
lemma Activation.InUse.occupies {a : Activation} {now : String} (h : a.InUse now) : a.Occupies :=
  h.imp And.left id

/-- The key of an activation is the one that a specification gives to it. -/
def FitsSpec (s : Store) (spec : BindingSpec) (a : Activation) : Prop :=
  ∀ r ∈ s.event a.sourceEventId, a.partitionKey =
    match spec.concurrency with
    | .singleton => a.bindingId
    | .partitioned => r.event.partitionKey

instance (s : Store) (spec : BindingSpec) (a : Activation) : Decidable (FitsSpec s spec a) :=
  inferInstanceAs (Decidable (∀ r ∈ s.event a.sourceEventId, _))

/-- The specification that a call gives to a binding that is there. -/
def respecified (s : Store) (c : Call) : Option BindingSpec :=
  match c.tool, normalizeBinding c.args with
  | .bindingUpsert, .ok spec => (s.binding spec.bindingId).bind fun b =>
      if integerOf c.args "expected_revision" = some (b.revision : ℤ) then some spec else none
  | _, _ => none

/-- A call gives a binding a specification that an unfinished activation of it does not fit. -/
def Rekeyed (s : Store) (c : Call) : Prop :=
  ∃ spec ∈ respecified s c, ∃ a ∈ s.activations, a.bindingId = spec.bindingId ∧
    a.status ≠ .terminal ∧ ¬ FitsSpec s spec a

instance (s : Store) (c : Call) : Decidable (Rekeyed s c) :=
  inferInstanceAs (Decidable (∃ spec ∈ respecified s c, ∃ a ∈ s.activations, _))

/-! ### What calls keep -/

omit [FloatText] [Digest] [IsoTime] in
/-- The row of a binding behind its update. -/
lemma updated_binding {s : Store} {other : String} (f : Binding → Binding)
    (hf : ∀ b : Binding, b.spec.bindingId = other → (f b).spec.bindingId = b.spec.bindingId)
    {id : String} {b : Binding} (hb : s.binding id = some b) :
    (s.updateBinding other f).binding id =
      some (if b.spec.bindingId = other then f b else b) := by
  have hrow : (s.updateBinding other f).binding id =
      (s.binding id).map fun b => if b.spec.bindingId = other then f b else b :=
    Table.row_updateWhere hf id
  rw [hrow, hb]
  rfl

/-- A binding stays, with its specification or with that of an upsert. -/
lemma Effect.binding {s t : Store} {c : Call} (h : Effect s c t) {id : String} {b : Binding}
    (hb : s.binding id = some b) :
    ∃ b', t.binding id = some b' ∧ (b'.spec = b.spec ∨ b'.spec ∈ respecified s c) := by
  have hstatus : ∀ (other now : String) (status : BindingStatus),
      ∃ b', (s.updateBinding other (·.setStatus status now)).binding id = some b' ∧
        (b'.spec = b.spec ∨ b'.spec ∈ respecified s c) := by
    intro other now status
    refine ⟨_, updated_binding (·.setStatus status now) (fun _ _ => rfl) hb, Or.inl ?_⟩
    split_ifs <;> rfl
  cases h with
  | create => exact ⟨b, Table.row_append_of_some _ hb, Or.inl rfl⟩
  | @respecify spec now current htool hspec hcurrent hexpected =>
      refine ⟨_, updated_binding (·.respecify spec _ now) (fun _ h => h.symm) hb, ?_⟩
      split_ifs
      · refine Or.inr ?_
        simp [respecified, htool, hspec, hcurrent, hexpected, Binding.respecify]
      · exact Or.inl rfl
  | setStatus => exact hstatus _ _ _
  | pause => exact hstatus _ _ _
  | _ => exact ⟨b, hb, Or.inl rfl⟩

/-- An event stays. -/
lemma Effect.event {s t : Store} {c : Call} (h : Effect s c t) {id : String} {r : EventRow}
    (hr : s.event id = some r) : t.event id = some r := by
  cases h with
  | admitEvent _ _ hevents =>
      rcases hevents with ⟨rfl, -⟩ | ⟨rfl, -⟩
      · exact Table.row_append_of_some _ hr
      · exact hr
  | _ => exact hr

/-- An activation behind a call was there, or it is fresh. -/
lemma Effect.activation {s t : Store} {c : Call} (hs : s.WellFormed) (h : Effect s c t)
    {b : Activation} (hb : b ∈ t.activations) :
    (∃ a ∈ s.activations, Move s c a b) ∨ ∃ event binding, Created s c t b event binding := by
  have hrow : t.activation b.activationId = some b :=
    Table.row_of_mem (h.wellFormed hs).activations hb
  cases ha : s.activation b.activationId with
  | some a =>
      obtain ⟨b', hb', hmove⟩ := move_of_effect hs h ha
      obtain rfl : b' = b := Option.some.inj (hb'.symm.trans hrow)
      exact Or.inl ⟨a, Table.mem_of_row ha, hmove⟩
  | none => exact Or.inr (created_of_effect h ha hrow)

/-! ### One holder for a key -/

/-- Activations of one binding and one key are not held together. -/
def Apart (s : Store) : Prop :=
  ∀ a ∈ s.activations, ∀ b ∈ s.activations, a.bindingId = b.bindingId →
    a.partitionKey = b.partitionKey → a.Occupies → b.Occupies → a.activationId = b.activationId

/-- An activation that is held behind a call was held before, or it was just handed out. -/
lemma Move.occupies {s : Store} {c : Call} {a b : Activation} (h : Move s c a b)
    (hb : b.Occupies) : a.Occupies ∨ leasedBy s c = some a.activationId := by
  cases h with
  | keep => exact Or.inl hb
  | lease _ _ hleased => exact Or.inr hleased
  | @recover now =>
      refine Or.inl ?_
      rw [recoverRow] at hb
      split_ifs at hb with hpaused hactive
      · exact Or.inl hpaused.1
      · exact Or.inl hactive.1
      · exact hb
  | admitSop _ hleased | fail _ _ hleased => exact Or.inl (Or.inl hleased)
  | quiesce | resolve | unblock => rcases hb with hb | hb <;> cases hb

omit [FloatText] [Digest] [IsoTime] in
lemma recoverRow_mem {s : Store} (hs : s.WellFormed) (now : String) {a : Activation}
    (ha : a ∈ s.activations) : recoverRow s now a ∈ (s.recover now).activations := by
  have hrow : (s.recover now).activation a.activationId = some (recoverRow s now a) := by
    rw [row_recover, show s.activation a.activationId = some a from
      Table.row_of_mem hs.activations ha]
    rfl
  exact Table.mem_of_row hrow

/-- What a call has just handed out has no other holder of its key beside it. -/
lemma Move.alone {s : Store} {c : Call} (hs : s.WellFormed) {a a' b b' : Activation}
    (ha : Move s c a a') (hleased : leasedBy s c = some a.activationId)
    (hb : b ∈ s.activations) (hmove : Move s c b b') (hbinding : b'.bindingId = a'.bindingId)
    (hkey : b'.partitionKey = a'.partitionKey) (hoccupies : b'.Occupies) :
    b'.activationId = a'.activationId := by
  by_contra hne
  have hclaim : c.tool = .activationClaim := by
    by_contra htool
    rw [leasedBy_eq_none htool] at hleased
    cases hleased
  have hother : leasedBy s c ≠ some b.activationId := fun h => by
    rw [hleased, Option.some.injEq] at h
    exact hne (hmove.keeps.1.trans (h.symm.trans ha.keeps.1.symm))
  cases ha with
  | @lease now _ _ _ hnow _ hclaimable =>
      cases hmove with
      | @recover now' _ hnow' =>
          obtain rfl : now = now' := Except.ok.inj (hnow.symm.trans hnow')
          exact hclaimable.2.2.2 ⟨_, recoverRow_mem hs now hb, hbinding, hkey, hne, hoccupies⟩
      | lease _ _ h => exact hother h
      | keep htool => exact htool hclaim
      | quiesce htool | admitSop htool | fail htool | resolve htool | unblock htool =>
          simp [htool] at hclaim
  | recover _ _ h => exact h hleased
  | keep htool => exact htool hclaim
  | quiesce htool | admitSop htool | fail htool | resolve htool | unblock htool =>
      simp [htool] at hclaim

/-- **Activations of one key are held one at a time**, behind every call. -/
lemma Apart.effect {s t : Store} {c : Call} (hs : s.WellFormed) (h : Apart s) (heffect : Effect s c t) :
    Apart t := by
  intro a' ha' b' hb' hbinding hkey hoccupiesA hoccupiesB
  have hfresh : ∀ {a : Activation} {event : SourceEvent} {binding : Binding},
      Created s c t a event binding → ¬ a.Occupies := by
    intro a event binding hcreated h
    obtain ⟨due, now, rfl⟩ := hcreated.fresh
    simp only [Activation.Occupies, newActivation] at h
    split_ifs at h <;> simp at h
  obtain ⟨a, ha, hmoveA⟩ | ⟨_, _, hcreated⟩ := heffect.activation hs ha'
  · obtain ⟨b, hb, hmoveB⟩ | ⟨_, _, hcreated⟩ := heffect.activation hs hb'
    · rcases hmoveA.occupies hoccupiesA with hheldA | hleased
      · rcases hmoveB.occupies hoccupiesB with hheldB | hleased
        · obtain ⟨hidA, hbindingA, -, hkeyA⟩ := hmoveA.keeps
          obtain ⟨hidB, hbindingB, -, hkeyB⟩ := hmoveB.keeps
          rw [hidA, hidB]
          exact h a ha b hb (by rw [← hbindingA, ← hbindingB, hbinding])
            (by rw [← hkeyA, ← hkeyB, hkey]) hheldA hheldB
        · exact hmoveB.alone hs hleased ha hmoveA hbinding hkey hoccupiesA
      · exact (hmoveA.alone hs hleased hb hmoveB hbinding.symm hkey.symm hoccupiesB).symm
    · exact absurd hoccupiesB (hfresh hcreated)
  · exact absurd hoccupiesA (hfresh hcreated)

/-! ### Keys that fit -/

omit [IsoTime] in
/-- One digest is of events with one partition. -/
lemma partitionKey_of_digest (hf : FloatText.Lawful) (hsha : Function.Injective Digest.sha256)
    {e f : SourceEvent} (h : digest (.object e.fields) = digest (.object f.fields)) :
    e.partitionKey = f.partitionKey := by
  refine Value.get_string_of_canonicalText hf ?_ ?_ (hsha h) "partition_key" rfl rfl
  all_goals simp [OrderedMap.keys, SourceEvent.fields]

/-- What the tables keep beside their keys. -/
structure Fitting (s : Store) : Prop where
  wellFormed : s.WellFormed
  apart : Apart s
  digested : ∀ r ∈ s.events, r.digest = digest (.object r.event.fields)
  fits : ∀ a ∈ s.activations, a.status ≠ .terminal → ∀ b ∈ s.binding a.bindingId,
    FitsSpec s b.spec a

/-- An activation fits what it did before, as long as its event is there. -/
lemma FitsSpec.effect {s t : Store} {c : Call} (hs : s.WellFormed) (heffect : Effect s c t)
    {a a' : Activation} (ha : a ∈ s.activations) (hmove : Move s c a a') {spec : BindingSpec}
    (h : FitsSpec s spec a) : FitsSpec t spec a' := by
  obtain ⟨-, hbinding, hevent, hkey⟩ := hmove.keeps
  obtain ⟨r, hmem, hid⟩ := List.mem_map.mp (hs.sourced a ha)
  have hr : s.event a.sourceEventId = some r := by
    rw [← hid]
    exact Table.row_of_mem hs.events hmem
  intro r' hr'
  have ht := heffect.event hr
  rw [← hevent] at ht
  obtain rfl : r = r' := Option.some.inj (ht.symm.trans hr')
  rw [hkey, hbinding]
  exact h r hr

omit [IsoTime] in
/-- A fresh activation fits the binding that it is for. -/
lemma Created.fits [IsoTime] (hf : FloatText.Lawful) (hsha : Function.Injective Digest.sha256)
    {s t : Store} {c : Call} (hs : s.WellFormed)
    (hdigested : ∀ r ∈ s.events, r.digest = digest (.object r.event.fields)) {a : Activation}
    {event : SourceEvent} {binding b : Binding} (h : Created s c t a event binding)
    (hb : t.binding a.bindingId = some b) : FitsSpec t b.spec a := by
  obtain ⟨due, now, rfl⟩ := h.fresh
  have hrow : s.binding binding.spec.bindingId = some binding :=
    Table.row_of_mem hs.bindings h.mem
  rw [Store.binding, h.bindings] at hb
  obtain rfl : binding = b := Option.some.inj (hrow.symm.trans hb)
  obtain ⟨row, hrow, hsame⟩ := h.event_row
  have hkey : row.event.partitionKey = event.partitionKey := by
    rcases hsame with rfl | ⟨hold, hdigest⟩
    · rfl
    · refine partitionKey_of_digest hf hsha ?_
      rw [← hdigested row (Table.mem_of_row hold), hdigest]
  intro r hr
  obtain rfl : row = r := Option.some.inj (hrow.symm.trans hr)
  simp only [newActivation, partitionKeyOf]
  cases binding.spec.concurrency with
  | singleton => rfl
  | partitioned => exact hkey.symm

/-- A call that gives no binding a concurrency that its unfinished activations do not fit keeps
the tables fitting. -/
lemma Fitting.effect (hf : FloatText.Lawful) (hsha : Function.Injective Digest.sha256)
    {s t : Store} {c : Call} (h : Fitting s) (hrekeyed : ¬ Rekeyed s c) (heffect : Effect s c t) :
    Fitting t := by
  refine ⟨heffect.wellFormed h.wellFormed, h.apart.effect h.wellFormed heffect, ?_, ?_⟩
  · intro r hr
    cases heffect with
    | admitEvent _ _ hevents =>
        rcases hevents with ⟨rfl, -⟩ | ⟨rfl, -⟩
        · rcases List.mem_append.mp hr with hr | hr
          · exact h.digested r hr
          · rw [List.mem_singleton.mp hr]
        · exact h.digested r hr
    | _ => exact h.digested r hr
  · intro a' ha' hopen b' hb'
    rcases heffect.activation h.wellFormed ha' with ⟨a, ha, hmove⟩ | ⟨event, binding, hcreated⟩
    · have hopenA : a.status ≠ .terminal := fun hterminal =>
        hopen (by rw [hmove.of_terminal hterminal, hterminal])
      have hbound := hmove.keeps.2.1
      obtain ⟨b, hmem, hid⟩ := List.mem_map.mp (h.wellFormed.bound a ha)
      have hb : s.binding a.bindingId = some b := by
        rw [← hid]
        exact Table.row_of_mem h.wellFormed.bindings hmem
      obtain ⟨b'', hb'', hspec⟩ := heffect.binding hb
      rw [hbound] at hb'
      obtain rfl : b'' = b' := Option.some.inj (hb''.symm.trans hb')
      refine FitsSpec.effect h.wellFormed heffect ha hmove ?_
      rcases hspec with hspec | hrespecifies
      · rw [hspec]
        exact h.fits a ha hopenA b hb
      · by_contra hunfit
        exact hrekeyed ⟨_, hrespecifies, a, ha, (Store.key_of_binding hb'').symm, hopenA, hunfit⟩
    · exact hcreated.fits hf hsha h.wellFormed h.digested hb'

/-- **The tables stay fitting** in a run that gives no binding a concurrency that its unfinished
activations do not fit. -/
lemma fitting_run (hf : FloatText.Lawful) (hsha : Function.Injective Digest.sha256)
    {calls : List Call} (h : Calls.Each Store.after (fun s c => ¬ Rekeyed s c) Store.empty calls) :
    Fitting (Calls.run Store.after Store.empty calls) := by
  have hempty : Fitting Store.empty := by
    refine ⟨.empty, ?_, ?_, ?_⟩ <;> simp [Apart, Store.empty]
  refine Calls.invariant_run (fun s c hs hc => ?_) hempty h
  rcases after_cases s c with ⟨heq, -⟩ | heffect
  · rwa [heq]
  · exact hs.effect hf hsha hc heffect

/-! ### Mutual exclusion -/

/-- Two activations of one binding are in use together against its concurrency. -/
structure Collide (s : Store) (now : String) (a b : Activation) : Prop where
  left : a ∈ s.activations
  right : b ∈ s.activations
  distinct : a.activationId ≠ b.activationId
  bound : a.bindingId = b.bindingId
  leftInUse : a.InUse now
  rightInUse : b.InUse now
  against : ∃ binding ∈ s.binding a.bindingId, binding.spec.concurrency = .singleton ∨
    ∃ r ∈ s.event a.sourceEventId, ∃ q ∈ s.event b.sourceEventId,
      r.event.partitionKey = q.event.partitionKey

/-- **Mutual exclusion**: in a run that never gives a binding a concurrency that its unfinished
activations do not fit, a singleton binding never has two activations in use, and a partitioned
one never two of one partition. -/
theorem exclusive (hf : FloatText.Lawful) (hsha : Function.Injective Digest.sha256)
    {calls : List Call} (h : Calls.Each Store.after (fun s c => ¬ Rekeyed s c) Store.empty calls)
    (now : String) (a b : Activation) :
    ¬ Collide (Calls.run Store.after Store.empty calls) now a b := by
  rintro ⟨ha, hb, hne, hbinding, hinA, hinB, binding, hmem, hagainst⟩
  obtain ⟨hwell, hapart, -, hfits⟩ := fitting_run hf hsha h
  have hopen : ∀ {x : Activation}, x.InUse now → x.status ≠ .terminal := fun hx hterminal => by
    rcases hx.occupies with h | h <;> simp [hterminal] at h
  have hfitA := hfits a ha (hopen hinA) binding hmem
  have hfitB := hfits b hb (hopen hinB) binding (hbinding ▸ hmem)
  refine hne (hapart a ha b hb hbinding ?_ hinA.occupies hinB.occupies)
  cases hconcurrency : binding.spec.concurrency with
  | singleton =>
      obtain ⟨rowA, hrowA, hidA⟩ := List.mem_map.mp (hwell.sourced a ha)
      obtain ⟨rowB, hrowB, hidB⟩ := List.mem_map.mp (hwell.sourced b hb)
      have hkeyA := hfitA rowA (hidA ▸ Table.row_of_mem hwell.events hrowA)
      have hkeyB := hfitB rowB (hidB ▸ Table.row_of_mem hwell.events hrowB)
      rw [hconcurrency] at hkeyA hkeyB
      calc a.partitionKey = a.bindingId := hkeyA
        _ = b.bindingId := hbinding
        _ = b.partitionKey := hkeyB.symm
  | partitioned =>
      rw [hconcurrency] at hagainst
      obtain hcontra | ⟨r, hr, q, hq, hsame⟩ := hagainst
      · cases hcontra
      have hkeyA := hfitA r hr
      have hkeyB := hfitB q hq
      rw [hconcurrency] at hkeyA hkeyB
      calc a.partitionKey = r.event.partitionKey := hkeyA
        _ = q.event.partitionKey := hsame
        _ = b.partitionKey := hkeyB.symm

/-- **Whatever is called**, two activations of one binding that were created with one key are never
held at a time. -/
theorem held_apart (calls : List Call) : Apart (Calls.run Store.after Store.empty calls) := by
  have hstart : Store.empty.WellFormed ∧ Apart Store.empty := ⟨.empty, by simp [Apart, Store.empty]⟩
  have hstep : ∀ s c, s.WellFormed ∧ Apart s → (s.after c).WellFormed ∧ Apart (s.after c) := by
    rintro s c ⟨hs, h⟩
    refine ⟨hs.after c, ?_⟩
    rcases after_cases s c with ⟨heq, -⟩ | heffect
    · rwa [heq]
    · exact h.effect hs heffect
  exact (Calls.invariant_all hstep hstart calls).2

/-! ### Admissions are for good -/

/-- An activation that is admitted stays as it is, or it is resolved. -/
lemma Move.of_admitted {s : Store} {c : Call} {a b : Activation} (h : Move s c a b)
    (ha : a.status = .admitted) : b = a ∨ b.status = .terminal ∧ b.sopRunId = a.sopRunId := by
  have hrecovered : ∀ now, recoverRow s now a = a := fun now =>
    recoverRow_of_not_leased (by simp [ha])
  cases h with
  | keep => exact .inl rfl
  | recover => exact .inl (hrecovered _)
  | resolve => exact .inr ⟨rfl, rfl⟩
  | lease _ _ _ hclaimable =>
      have hpending := hclaimable.1
      rw [hrecovered, ha] at hpending
      cases hpending
  | quiesce _ hquiesced => rcases hquiesced.2 with h | h <;> simp_all
  | admitSop _ hleased | fail _ _ hleased =>
      rw [ha] at hleased
      cases hleased
  | unblock _ _ hblocked =>
      rw [ha] at hblocked
      cases hblocked

/-- What has been handed on for good: to a run, or to its end. -/
def Activation.Taken (a : Activation) : Prop := a.status = .admitted ∨ a.status = .terminal

instance (a : Activation) : Decidable a.Taken := inferInstanceAs (Decidable (_ ∨ _))

lemma Move.of_taken {s : Store} {c : Call} {a b : Activation} (h : Move s c a b) (ha : a.Taken) :
    b.Taken ∧ b.sopRunId = a.sopRunId ∧ (a.status = .terminal → b = a) := by
  rcases ha with hadmitted | hterminal
  · have hopen : a.status ≠ .terminal := by simp [hadmitted]
    rcases h.of_admitted hadmitted with rfl | ⟨hended, hsame⟩
    · exact ⟨.inl hadmitted, rfl, fun _ => rfl⟩
    · exact ⟨.inr hended, hsame, fun h => absurd h hopen⟩
  · obtain rfl := h.of_terminal hterminal
    exact ⟨.inr hterminal, rfl, fun _ => rfl⟩

/-- What is left of an activation that was taken. -/
def Holds (a : Activation) (s : Store) : Prop :=
  ∃ b, s.activation a.activationId = some b ∧ b.Taken ∧ b.sopRunId = a.sopRunId ∧
    (a.status = .terminal → b = a)

lemma Holds.after {a : Activation} {s : Store} (hs : s.WellFormed) (h : Holds a s) (c : Call) :
    Holds a (s.after c) := by
  obtain ⟨b, hb, htaken, hrun, hsame⟩ := h
  rcases after_cases s c with ⟨heq, -⟩ | heffect
  · rw [heq]
    exact ⟨b, hb, htaken, hrun, hsame⟩
  · obtain ⟨b', hb', hmove⟩ := move_of_effect hs heffect hb
    obtain ⟨htaken', hrun', hsame'⟩ := hmove.of_taken htaken
    refine ⟨b', hb', htaken', hrun'.trans hrun, fun hended => ?_⟩
    obtain rfl := hsame hended
    exact hsame' hended

/-- **An admission is never taken back**: in every run that goes on, what is admitted stays with its
run until it has ended, and what has ended stays as it is. -/
theorem taken_stay (calls more : List Call) :
    let s := Calls.run Store.after Store.empty calls
    let t := Calls.run Store.after s more
    s.activations.filter (·.status = .terminal) ⊆ t.activations ∧
      (s.activations.filter (·.Taken)).map (fun a => (a.activationId, a.sopRunId)) ⊆
        (t.activations.filter (·.Taken)).map fun a => (a.activationId, a.sopRunId) := by
  intro s t
  have hs : s.WellFormed := Reachable.wellFormed ⟨calls, rfl⟩
  have hrow : ∀ a ∈ s.activations, a.Taken → Holds a t := by
    intro a ha htaken
    have hstart : Holds a s := ⟨a, Table.row_of_mem hs.activations ha, htaken, rfl, fun _ => rfl⟩
    have hstep : ∀ (u : Store) (c : Call), u.WellFormed ∧ Holds a u →
        (u.after c).WellFormed ∧ Holds a (u.after c) := by
      rintro u c ⟨hu, h⟩
      exact ⟨hu.after c, h.after hu c⟩
    exact (Calls.invariant_all hstep ⟨hs, hstart⟩ more).2
  constructor
  · intro a hmem
    obtain ⟨ha, hended⟩ := List.mem_filter.mp hmem
    have hterminal : a.status = .terminal := of_decide_eq_true hended
    obtain ⟨b, hb, -, -, hsame⟩ := hrow a ha (.inr hterminal)
    exact hsame hterminal ▸ Table.mem_of_row hb
  · intro pair hmem
    obtain ⟨a, hfilter, rfl⟩ := List.mem_map.mp hmem
    obtain ⟨ha, htaken⟩ := List.mem_filter.mp hfilter
    obtain ⟨b, hb, hbTaken, hrun, -⟩ := hrow a ha (of_decide_eq_true htaken)
    refine List.mem_map.mpr ⟨b, List.mem_filter.mpr ⟨Table.mem_of_row hb,
      decide_eq_true hbTaken⟩, ?_⟩
    rw [hrun, Store.key_of_activation hb]

end Exclusion

/-- A partitioned binding with events of two partitions, made a singleton, and two claims. -/
def changed (concurrency : Concurrency) : List Call :=
  [⟨.bindingUpsert, sampleEnv 0, sampleBinding .partitioned 3⟩,
    ⟨.eventAdmit, sampleEnv 1, sampleEvent "e1" "p1" "done"⟩,
    ⟨.eventAdmit, sampleEnv 2, sampleEvent "e2" "p2" "done"⟩,
    ⟨.bindingUpsert, sampleEnv 3,
      sampleBinding concurrency 3 ++ [("expected_revision", .ofNat 1)]⟩,
    sampleClaim 4, sampleClaim 5]

/-- The tables behind the first of these calls. -/
def changedStore (concurrency : Concurrency) (k : ℕ) : Store :=
  letI := FloatText.fields
  letI := backwards
  letI := IsoTime.utc
  Calls.run Store.after Store.empty ((changed concurrency).take k)

/-- Two activations were in use together when their binding was given a specification. -/
def Tolerated [FloatText] [Digest] [IsoTime] (calls : List Call) (a b : Activation) : Prop :=
  ∃ before c rest, calls = before ++ c :: rest ∧
    (respecified (Calls.run Store.after Store.empty before) c).isSome ∧
    ∃ now, ∀ id ∈ [a.activationId, b.activationId],
      ∃ x ∈ (Calls.run Store.after Store.empty before).activations,
        x.activationId = id ∧ x.InUse now

/-- With the concurrency it had, the two claims are of two partitions. -/
theorem exclusive_changed :
    ∃ a ∈ (changedStore .partitioned 6).activations,
      ∃ b ∈ (changedStore .partitioned 6).activations, a.activationId ≠ b.activationId ∧
        ¬ Collide (changedStore .partitioned 6) "2026-01-01T00:00:00.006Z" a b := by
  obtain ⟨a, ha, b, hb, hne⟩ : ∃ a ∈ (changedStore .partitioned 6).activations,
      ∃ b ∈ (changedStore .partitioned 6).activations, a.activationId ≠ b.activationId := by
    decide +kernel
  exact ⟨a, ha, b, hb, hne,
    @exclusive FloatText.fields backwards IsoTime.utc FloatText.fields_lawful
      (fun s t h => String.toList_injective (List.reverse_injective (String.ofList_injective h)))
      (changed .partitioned) (by decide +kernel) "2026-01-01T00:00:00.006Z" a b⟩

/-- After the change to `singleton` both activations are leased, and neither was before. -/
theorem changed_concurrency :
    letI := FloatText.fields
    letI := backwards
    letI := IsoTime.utc
    ¬ ∀ (calls : List Call) (now : String) (a b : Activation),
      Collide (Calls.run Store.after Store.empty calls) now a b → Tolerated calls a b := by
  intro h
  have hfinal : ∃ a ∈ (changedStore .singleton 6).activations,
      ∃ b ∈ (changedStore .singleton 6).activations, a.activationId ≠ b.activationId ∧
        a.bindingId = b.bindingId ∧ a.InUse "2026-01-01T00:00:00.006Z" ∧
        b.InUse "2026-01-01T00:00:00.006Z" ∧
        ∃ binding ∈ (changedStore .singleton 6).binding a.bindingId,
          binding.spec.concurrency = .singleton := by decide +kernel
  obtain ⟨a, ha, b, hb, hne, hbound, hinA, hinB, binding, hbinding, hsingleton⟩ := hfinal
  obtain ⟨before, c, rest, hcalls, hgiven, now, hinUse⟩ := h (changed .singleton) _ a b
    ⟨ha, hb, hne, hbound, hinA, hinB, binding, hbinding, Or.inl hsingleton⟩
  -- an upsert is the first or the fourth call, and nothing is in use before these
  have hlength : before.length < 6 := by
    have := congrArg List.length hcalls
    simp only [changed, List.length_append, List.length_cons] at this
    simp at this
    omega
  have hc : (changed .singleton)[before.length]? = some c := by simp [hcalls]
  have hbefore : before = (changed .singleton).take before.length := by simp [hcalls]
  have htool : c.tool = .bindingUpsert := by
    rw [respecified] at hgiven
    split at hgiven
    · assumption
    · cases hgiven
  have hplaces : ∀ k < 6, ∀ c ∈ (changed .singleton)[k]?, c.tool = .bindingUpsert →
      k = 0 ∨ k = 3 := by decide +kernel
  have hidle : ∀ k ∈ [0, 3], ∀ x ∈ (changedStore .singleton k).activations, ¬ x.Occupies := by
    decide +kernel
  obtain ⟨x, hx, -, hin⟩ := hinUse a.activationId List.mem_cons_self
  refine hidle before.length ?_ x ?_ hin.occupies
  · simpa using hplaces _ hlength c hc htool
  · rw [changedStore, ← hbefore]
    exact hx

end Scheduler

end McpSurfaces
