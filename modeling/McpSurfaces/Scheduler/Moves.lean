import McpSurfaces.Foundation.Calls
import McpSurfaces.Foundation.Fallible
import McpSurfaces.Scheduler.Operations

/-!
What a call of the scheduler can do: to the tables, and from there to the row of one activation.

* `Effect`, **`effect_of_call`**: the tables behind a call that succeeds, with what the call has
  checked before.
* `Move`, **`move_of_effect`**: a row stays in its table, and changes only in the ways of `Move`.
* **`created_of_effect`**: a row that was not there is a fresh activation of an active binding.
-/

namespace McpSurfaces

namespace Scheduler

open EventLedger (Failure Digest)
open Lists

variable [FloatText] [Digest] [IsoTime]

/-! ### The tables behind a call -/

/-- What a call that succeeds does to the tables. -/
inductive Effect (s : Store) (c : Call) : Store → Prop
  | unchanged (htool : c.tool = .bindingUpsert ∨ c.tool = .activationResolve) : Effect s c s
  | create {spec : BindingSpec} {now : String} (htool : c.tool = .bindingUpsert)
      (hspec : normalizeBinding c.args = .ok spec) (hnew : s.binding spec.bindingId = none) :
      Effect s c { s with
        bindings := s.bindings ++ [⟨spec, .active, 1, digest (.object spec.fields), now, now⟩] }
  | respecify {spec : BindingSpec} {now : String} {current : Binding}
      (htool : c.tool = .bindingUpsert) (hspec : normalizeBinding c.args = .ok spec)
      (hcurrent : s.binding spec.bindingId = some current)
      (hexpected : integerOf c.args "expected_revision" = some (current.revision : ℤ)) :
      Effect s c (s.updateBinding spec.bindingId
        (·.respecify spec (digest (.object spec.fields)) now))
  | setStatus {id now : String} {status : BindingStatus}
      (htool : c.tool = .bindingResume ∨ c.tool = .bindingRetire) :
      Effect s c (s.updateBinding id (·.setStatus status now))
  | pause {id now : String} (htool : c.tool = .bindingPause)
      (hid : trimmedText c.args "binding_id" = some id) (hnow : formatIso c.env.now = .ok now) :
      Effect s c ((s.updateBinding id (·.setStatus .paused now)).updateActivations
        (·.QuiescedBy id now) (·.cancelPaused "binding_paused_before_admission" now))
  | admitEvent {event : SourceEvent} {now : String} {events : List EventRow}
      {bindings : List Binding} {activations : List Activation} (htool : c.tool = .eventAdmit)
      (hevent : normalizeEvent c.args = .ok event)
      (hevents : events = s.events ++ [⟨event, digest (.object event.fields), now⟩] ∧
          s.event event.eventId = none ∨
        events = s.events ∧ ∃ row, s.event event.eventId = some row ∧
          row.digest = digest (.object event.fields))
      (hbindings : ∀ b ∈ bindings, b ∈ s.bindings ∧ b.status = .active)
      (hrun : bindings.foldlM (admitFor event now) s.activations = .ok activations) :
      Effect s c { s with events, activations }
  | recover {now : String} (htool : c.tool = .activationClaim)
      (hnow : formatIso c.env.now = .ok now) (hleased : leasedBy s c = none) :
      Effect s c (s.recover now)
  | lease {now consumer expires : String} {a : Activation} (htool : c.tool = .activationClaim)
      (hnow : formatIso c.env.now = .ok now) (ha : a ∈ (s.recover now).activations)
      (hclaimable : (s.recover now).Claimable now a)
      (hleased : leasedBy s c = some a.activationId) :
      Effect s c ((s.recover now).updateActivations
        (fun r => r.activationId = a.activationId ∧ r.status = .pending)
        (·.lease consumer c.env.token expires now))
  | admitSop {id run now : String} {a : Activation} {receipts : List ReceiptRow}
      (htool : c.tool = .activationAdmitSop) (ha : s.activation id = some a)
      (hleased : a.status = .leased) :
      Effect s c { s.updateActivation id (·.admitSop run now) with receipts }
  | fail {id due error now : String} {a : Activation} {b : Binding} {retry : Bool}
      (htool : c.tool = .activationFail) (hid : trimmedText c.args "activation_id" = some id)
      (ha : s.activation id = some a) (hleased : a.status = .leased)
      (hb : s.binding a.bindingId = some b)
      (hretry : retry → a.attemptCount + 1 < b.spec.maxAttempts) :
      Effect s c (s.updateActivation id (·.fail retry (a.attemptCount + 1) due error now))
  | resolve {outcome now : String} {a : Activation} {receipts : List ReceiptRow}
      (htool : c.tool = .activationResolve) (ha : a ∈ s.activations)
      (hadmitted : a.status = .admitted) :
      Effect s c { s.updateActivation a.activationId (·.resolve outcome now) with receipts }
  | unblock {id due now : String} {a : Activation} (htool : c.tool = .activationUnblock)
      (hid : trimmedText c.args "activation_id" = some id) (ha : s.activation id = some a)
      (hblocked : a.status = .blocked) :
      Effect s c (s.updateActivation id (·.unblock due now))

section

omit [FloatText] [Digest] [IsoTime]

lemma required_ok {args : Map} {field value : String} (h : required args field = .ok value) :
    trimmedText args field = some value := by
  rw [required] at h
  cases htext : trimmedText args field with
  | some text =>
      rw [htext] at h
      cases h
      rfl
  | none =>
      rw [htext] at h
      cases h

lemma requireBinding_ok {s : Store} {id : String} {b : Binding} (h : s.requireBinding id = .ok b) :
    s.binding id = some b := by
  rw [Store.requireBinding] at h
  cases hb : s.binding id with
  | some b' =>
      rw [hb] at h
      cases h
      rfl
  | none =>
      rw [hb] at h
      cases h

lemma requireActivation_ok {s : Store} {id : String} {a : Activation}
    (h : s.requireActivation id = .ok a) : s.activation id = some a := by
  rw [Store.requireActivation] at h
  cases ha : s.activation id with
  | some a' =>
      rw [ha] at h
      cases h
      rfl
  | none =>
      rw [ha] at h
      cases h

end

lemma effect_bindingUpsert {s t : Store} {c : Call} {v : Value} (htool : c.tool = .bindingUpsert)
    (h : bindingUpsert s c.env c.args = .ok (v, t)) : Effect s c t := by
  obtain ⟨spec, hspec, h⟩ := bind_eq_ok h
  obtain ⟨now, -, h⟩ := bind_eq_ok h
  cases hcurrent : s.binding spec.bindingId with
  | some current =>
      simp only [hcurrent] at h
      cases hexpected : integerOf c.args "expected_revision" with
      | none =>
          simp only [hexpected] at h
          split_ifs at h
          cases h
          exact .unchanged (by simp [htool])
      | some expected =>
          simp only [hexpected] at h
          obtain ⟨hrevision, h⟩ := guard_ok h
          obtain ⟨_, -, h⟩ := bind_eq_ok h
          cases h
          exact .respecify htool hspec hcurrent (by rw [hexpected, not_not.mp hrevision])
  | none =>
      simp only [hcurrent] at h
      obtain ⟨-, h⟩ := guard_ok h
      obtain ⟨_, -, h⟩ := bind_eq_ok h
      cases h
      exact .create htool hspec hcurrent

lemma effect_bindingSetStatus {s t : Store} {c : Call} {v : Value} {status : BindingStatus}
    (htool : if status = .paused then c.tool = .bindingPause
      else c.tool = .bindingResume ∨ c.tool = .bindingRetire)
    (h : bindingSetStatus s c.env status c.args = .ok (v, t)) : Effect s c t := by
  obtain ⟨id, hid, h⟩ := bind_eq_ok h
  obtain ⟨expected, -, h⟩ := bind_eq_ok h
  obtain ⟨now, hnow, h⟩ := bind_eq_ok h
  obtain ⟨current, -, h⟩ := bind_eq_ok h
  obtain ⟨-, h⟩ := guard_ok h
  dsimp only at h
  obtain ⟨_, -, h⟩ := bind_eq_ok h
  cases h
  split_ifs with hpaused
  · rw [if_pos hpaused] at htool
    rw [hpaused]
    exact .pause htool (required_ok hid) hnow
  · rw [if_neg hpaused] at htool
    exact .setStatus htool

lemma effect_eventAdmit {s t : Store} {c : Call} {v : Value} (htool : c.tool = .eventAdmit)
    (h : eventAdmit s c.env c.args = .ok (v, t)) : Effect s c t := by
  obtain ⟨event, hevent, h⟩ := bind_eq_ok h
  obtain ⟨now, -, h⟩ := bind_eq_ok h
  obtain ⟨events, hevents, h⟩ := bind_eq_ok h
  obtain ⟨activations, hrun, h⟩ := bind_eq_ok h
  cases h
  refine .admitEvent htool hevent ?_ (fun b hb => ?_) hrun
  · rw [admitSource] at hevents
    cases hexisting : s.event event.eventId with
    | some row =>
        simp only [hexisting] at hevents
        split_ifs at hevents with hdigest
        cases hevents
        exact Or.inr ⟨rfl, row, rfl, not_not.mp hdigest⟩
    | none =>
        simp only [hexisting] at hevents
        cases hevents
        exact Or.inl ⟨rfl, rfl⟩
  · have hmem := (List.mem_insertionSort _).mp hb
    simp only [List.mem_filter, decide_eq_true_eq] at hmem
    exact ⟨hmem.1, hmem.2.2⟩

section

omit [FloatText] [Digest] [IsoTime]

lemma claimAnswer_activationId (a : Option Activation) :
    (((claimAnswer a).get "activation").bind (·.get "activation_id")).bind Value.asStr =
      a.map (·.activationId) := by
  cases a <;> rfl

/-- The row of an activation behind its update. -/
lemma row_updateActivations {s : Store} {p : Activation → Prop} [DecidablePred p]
    {set : Activation → Activation} (hset : ∀ a, (set a).activationId = a.activationId)
    (id : String) : (s.updateActivations p set).activation id =
      (s.activation id).map fun a => if p a then set a else a :=
  Table.row_updateWhere (fun a _ => hset a) id

end

lemma effect_activationClaim {s t : Store} {c : Call} {v : Value}
    (htool : c.tool = .activationClaim) (h : activationClaim s c.env c.args = .ok (v, t)) :
    Effect s c t := by
  have hleased : leasedBy s c =
      ((v.get "activation").bind (·.get "activation_id")).bind Value.asStr := by
    simp only [leasedBy, Store.call, htool, h]
  obtain ⟨consumer, -, h⟩ := bind_eq_ok h
  obtain ⟨-, h⟩ := guard_ok h
  obtain ⟨now, hnow, h⟩ := bind_eq_ok h
  obtain ⟨expires, -, h⟩ := bind_eq_ok h
  cases hfirst : Table.firstBy ((s.recover now).Claimable now) dueOrder
      (s.recover now).activations with
  | none =>
      simp only [hfirst] at h
      cases h
      exact .recover htool hnow (by rw [hleased, claimAnswer_activationId]; rfl)
  | some a =>
      simp only [hfirst] at h
      cases h
      obtain ⟨hmem, hclaimable⟩ := Table.firstBy_mem hfirst
      refine .lease htool hnow hmem hclaimable ?_
      obtain ⟨r, hr⟩ : ∃ r, (s.recover now).activation a.activationId = some r :=
        Table.exists_row_of_mem hmem
      have hid : r.activationId = a.activationId := Store.key_of_activation hr
      rw [hleased, claimAnswer_activationId, row_updateActivations, hr]
      · by_cases hpending : r.status = .pending <;> simp [hid, hpending, Activation.lease]
      · exact fun _ => rfl

omit [FloatText] [Digest] in
/-- What `require_leased` has checked. -/
lemma requireLeased_ok {s : Store} {env : Env} {id consumer token : String} {a : Activation}
    (h : requireLeased s env id consumer token = .ok a) :
    s.activation id = some a ∧ a.status = .leased := by
  obtain ⟨a', ha, h⟩ := bind_eq_ok h
  obtain ⟨hleased, h⟩ := guard_ok h
  obtain ⟨-, h⟩ := guard_ok h
  obtain ⟨-, h⟩ := guard_ok h
  obtain ⟨_, -, h⟩ := bind_eq_ok h
  obtain ⟨-, h⟩ := guard_ok h
  cases h
  exact ⟨requireActivation_ok ha, not_not.mp hleased⟩

omit [Digest] [IsoTime] in
/-- A receipt is all that is recorded. -/
lemma recordReceipt_ok {s t : Store} {id kind receiptId now : String} {receipt : Value}
    (h : recordReceipt s id kind receiptId receipt now = .ok t) :
    ∃ receipts, t = { s with receipts } := by
  obtain ⟨encoded, -, h⟩ := bind_eq_ok h
  obtain ⟨-, h⟩ := guard_ok h
  cases h
  exact ⟨_, rfl⟩

lemma effect_activationAdmitSop {s t : Store} {c : Call} {v : Value}
    (htool : c.tool = .activationAdmitSop) (h : activationAdmitSop s c.env c.args = .ok (v, t)) :
    Effect s c t := by
  obtain ⟨id, -, h⟩ := bind_eq_ok h
  obtain ⟨consumer, -, h⟩ := bind_eq_ok h
  obtain ⟨token, -, h⟩ := bind_eq_ok h
  obtain ⟨run, -, h⟩ := bind_eq_ok h
  obtain ⟨receiptId, -, h⟩ := bind_eq_ok h
  obtain ⟨now, -, h⟩ := bind_eq_ok h
  obtain ⟨a, hlease, h⟩ := bind_eq_ok h
  obtain ⟨-, h⟩ := guard_ok h
  obtain ⟨t', hreceipt, h⟩ := bind_eq_ok h
  obtain ⟨_, -, h⟩ := bind_eq_ok h
  cases h
  obtain ⟨receipts, rfl⟩ := recordReceipt_ok hreceipt
  obtain ⟨ha, hleased⟩ := requireLeased_ok hlease
  exact .admitSop htool ha hleased

lemma effect_activationFail {s t : Store} {c : Call} {v : Value}
    (htool : c.tool = .activationFail) (h : activationFail s c.env c.args = .ok (v, t)) :
    Effect s c t := by
  obtain ⟨id, hid, h⟩ := bind_eq_ok h
  obtain ⟨consumer, -, h⟩ := bind_eq_ok h
  obtain ⟨token, -, h⟩ := bind_eq_ok h
  obtain ⟨failure, -, h⟩ := bind_eq_ok h
  obtain ⟨now, -, h⟩ := bind_eq_ok h
  obtain ⟨a, hlease, h⟩ := bind_eq_ok h
  obtain ⟨b, hb, h⟩ := bind_eq_ok h
  obtain ⟨due, -, h⟩ := bind_eq_ok h
  obtain ⟨_, -, h⟩ := bind_eq_ok h
  cases h
  obtain ⟨ha, hleased⟩ := requireLeased_ok hlease
  refine .fail htool (required_ok hid) ha hleased (requireBinding_ok hb) fun hretry => ?_
  exact of_decide_eq_true (Bool.and_elim_right hretry)

lemma effect_activationResolve {s t : Store} {c : Call} {v : Value}
    (htool : c.tool = .activationResolve) (h : activationResolve s c.env c.args = .ok (v, t)) :
    Effect s c t := by
  rw [activationResolve] at h
  obtain ⟨-, h⟩ := guard_ok h
  obtain ⟨outcome, -, h⟩ := bind_eq_ok h
  obtain ⟨receiptId, -, h⟩ := bind_eq_ok h
  obtain ⟨now, -, h⟩ := bind_eq_ok h
  dsimp only at h
  split at h
  · cases h
  · rename_i a hfound
    have ha : a ∈ s.activations := by
      split at hfound
      · exact Table.mem_of_row hfound
      · exact List.mem_of_find?_eq_some hfound
    by_cases hterminal : a.status = .terminal
    · rw [if_pos hterminal] at h
      split_ifs at h
      cases h
      exact .unchanged (by simp [htool])
    · rw [if_neg hterminal] at h
      obtain ⟨hadmitted, h⟩ := guard_ok h
      obtain ⟨t', hreceipt, h⟩ := bind_eq_ok h
      obtain ⟨_, -, h⟩ := bind_eq_ok h
      cases h
      obtain ⟨receipts, rfl⟩ := recordReceipt_ok hreceipt
      exact .resolve htool ha (not_not.mp hadmitted)

lemma effect_activationUnblock {s t : Store} {c : Call} {v : Value}
    (htool : c.tool = .activationUnblock) (h : activationUnblock s c.env c.args = .ok (v, t)) :
    Effect s c t := by
  obtain ⟨id, hid, h⟩ := bind_eq_ok h
  obtain ⟨now, -, h⟩ := bind_eq_ok h
  obtain ⟨due, -, h⟩ := bind_eq_ok h
  obtain ⟨a, ha, h⟩ := bind_eq_ok h
  obtain ⟨hblocked, h⟩ := guard_ok h
  obtain ⟨_, -, h⟩ := bind_eq_ok h
  cases h
  exact .unblock htool (required_ok hid) (requireActivation_ok ha) (not_not.mp hblocked)

/-- **What a call that succeeds does to the tables.** -/
theorem effect_of_call {s t : Store} {c : Call} {v : Value} (h : s.call c = .ok (v, t)) :
    Effect s c t := by
  rw [Store.call] at h
  cases htool : c.tool <;> simp only [htool] at h
  case bindingUpsert => exact effect_bindingUpsert htool h
  case bindingPause => exact effect_bindingSetStatus (by simpa using htool) h
  case bindingResume => exact effect_bindingSetStatus (by simp [htool]) h
  case bindingRetire => exact effect_bindingSetStatus (by simp [htool]) h
  case eventAdmit => exact effect_eventAdmit htool h
  case activationClaim => exact effect_activationClaim htool h
  case activationAdmitSop => exact effect_activationAdmitSop htool h
  case activationFail => exact effect_activationFail htool h
  case activationResolve => exact effect_activationResolve htool h
  case activationUnblock => exact effect_activationUnblock htool h

/-! ### The activations of an event -/

lemma admitFor_ok {event : SourceEvent} {now : String} {b : Binding}
    {activations activations' : List Activation}
    (h : admitFor event now activations b = .ok activations') :
    activations' = activations ∨ ∃ due,
      Table.row (·.activationId) activations (activationIdOf b.spec.bindingId event.eventId) = none ∧
        activations' = activations ++ [newActivation b event due now] := by
  rw [admitFor] at h
  by_cases hmatches : !bindingMatches b event
  · rw [if_pos hmatches] at h
    cases h
    exact Or.inl rfl
  rw [if_neg hmatches] at h
  by_cases hthere : (Table.row (·.activationId) activations
      (activationIdOf b.spec.bindingId event.eventId)).isSome
  · rw [if_pos hthere] at h
    cases h
    exact Or.inl rfl
  rw [if_neg hthere] at h
  obtain ⟨occurred, -, h⟩ := bind_eq_ok h
  obtain ⟨due, -, h⟩ := bind_eq_ok h
  rw [insertActivation] at h
  split_ifs at h
  cases h
  exact Or.inr ⟨due, by simpa using hthere, rfl⟩

/-- An event adds fresh activations behind the others. -/
lemma admitted_activations {event : SourceEvent} {now : String} {bindings : List Binding}
    {activations activations' : List Activation}
    (h : bindings.foldlM (admitFor event now) activations = .ok activations') :
    ∃ new, activations' = activations ++ new ∧
      (∀ a ∈ new, ∃ b ∈ bindings, ∃ due, a = newActivation b event due now) ∧
      ((activations.map (·.activationId)).Nodup → (activations'.map (·.activationId)).Nodup) := by
  induction bindings generalizing activations with
  | nil =>
      cases h
      exact ⟨[], by simp, by simp, id⟩
  | cons b rest ih =>
      rw [List.foldlM_cons] at h
      obtain ⟨next, hstep, hrest⟩ := bind_eq_ok h
      obtain ⟨new, rfl, hnew, hnodup⟩ := ih hrest
      have hrest' : ∀ a ∈ new, ∃ b' ∈ b :: rest, ∃ due, a = newActivation b' event due now := by
        intro a ha
        obtain ⟨b', hb', hdue⟩ := hnew a ha
        exact ⟨b', List.mem_cons_of_mem _ hb', hdue⟩
      rcases admitFor_ok hstep with rfl | ⟨due, hfresh, rfl⟩
      · exact ⟨new, rfl, hrest', hnodup⟩
      · refine ⟨newActivation b event due now :: new, by simp, fun a ha => ?_, fun h => ?_⟩
        · rcases List.mem_cons.mp ha with rfl | ha
          · exact ⟨b, List.mem_cons_self, due, rfl⟩
          · exact hrest' a ha
        · exact hnodup (Table.nodup_append_singleton h hfresh)

/-! ### Well-formed tables -/

/-- The primary keys are distinct and the references of activations lead somewhere. -/
structure Store.WellFormed (s : Store) : Prop where
  bindings : (s.bindings.map (·.spec.bindingId)).Nodup
  events : (s.events.map (·.event.eventId)).Nodup
  activations : (s.activations.map (·.activationId)).Nodup
  bound : ∀ a ∈ s.activations, a.bindingId ∈ s.bindings.map (·.spec.bindingId)
  sourced : ∀ a ∈ s.activations, a.sourceEventId ∈ s.events.map (·.event.eventId)

omit [FloatText] [Digest] [IsoTime] in
lemma Store.WellFormed.empty : Store.empty.WellFormed := by
  constructor <;> simp [Store.empty]

/-- A change of an activation that leaves what it was created with. -/
structure KeepsKeys (f : Activation → Activation) : Prop where
  id : ∀ a, (f a).activationId = a.activationId
  binding : ∀ a, (f a).bindingId = a.bindingId
  event : ∀ a, (f a).sourceEventId = a.sourceEventId
  partition : ∀ a, (f a).partitionKey = a.partitionKey

section

omit [FloatText] [Digest] [IsoTime]

/-- An update that leaves the keys of activations leaves the tables well-formed. -/
lemma Store.WellFormed.update {s : Store} (h : s.WellFormed) {p : Activation → Prop}
    [DecidablePred p] {f : Activation → Activation} (hf : KeepsKeys f) :
    (s.updateActivations p f).WellFormed := by
  refine ⟨h.bindings, h.events, ?_, fun a ha => ?_, fun a ha => ?_⟩
  · rw [Store.updateActivations, Table.keys_updateWhere fun a _ => hf.id a]
    exact h.activations
  · obtain ⟨old, hold, rfl⟩ := Table.mem_updateWhere.mp ha
    have := h.bound old hold
    split_ifs
    · rwa [hf.binding]
    · exact this
  · obtain ⟨old, hold, rfl⟩ := Table.mem_updateWhere.mp ha
    have := h.sourced old hold
    split_ifs
    · rwa [hf.event]
    · exact this

lemma Store.WellFormed.withReceipts {s : Store} (h : s.WellFormed) (receipts : List ReceiptRow) :
    Store.WellFormed { s with receipts } :=
  ⟨h.bindings, h.events, h.activations, h.bound, h.sourced⟩

end

section Keeps

omit [FloatText] [Digest] [IsoTime]

lemma keepsKeys_lease (consumer token expires now : String) :
    KeepsKeys (·.lease consumer token expires now) := by constructor <;> intro <;> rfl

lemma keepsKeys_cancelPaused (error now : String) : KeepsKeys (·.cancelPaused error now) := by
  constructor <;> intro <;> rfl

lemma keepsKeys_recover (now : String) : KeepsKeys (·.recover now) := by
  constructor <;> intro <;> rfl

lemma keepsKeys_admitSop (run now : String) : KeepsKeys (·.admitSop run now) := by
  constructor <;> intro <;> rfl

lemma keepsKeys_fail (retry : Bool) (attempt : ℕ) (due error now : String) :
    KeepsKeys (·.fail retry attempt due error now) := by constructor <;> intro <;> rfl

lemma keepsKeys_resolve (outcome now : String) : KeepsKeys (·.resolve outcome now) := by
  constructor <;> intro <;> rfl

lemma keepsKeys_unblock (due now : String) : KeepsKeys (·.unblock due now) := by
  constructor <;> intro <;> rfl

end Keeps

section

omit [FloatText] [Digest] [IsoTime]

lemma Store.WellFormed.recover {s : Store} (h : s.WellFormed) (now : String) :
    (s.recover now).WellFormed :=
  (h.update (keepsKeys_cancelPaused _ _)).update (keepsKeys_recover _)

lemma Store.WellFormed.updateBinding {s : Store} (h : s.WellFormed) {id : String}
    {f : Binding → Binding}
    (hid : ∀ b : Binding, b.spec.bindingId = id → (f b).spec.bindingId = id) :
    (s.updateBinding id f).WellFormed := by
  have hkeys : (s.updateBinding id f).bindings.map (·.spec.bindingId) =
      s.bindings.map (·.spec.bindingId) :=
    Table.keys_updateWhere fun b hb => (hid b hb).trans hb.symm
  refine ⟨?_, h.events, h.activations, fun a ha => ?_, h.sourced⟩
  · rw [hkeys]
    exact h.bindings
  · rw [hkeys]
    exact h.bound a ha

end

/-- An event that is admitted is there, and the other events stay. -/
lemma Effect.events_subset {s t : Store} {c : Call} (h : Effect s c t) :
    s.events.map (·.event.eventId) ⊆ t.events.map (·.event.eventId) := by
  cases h with
  | admitEvent _ _ hevents =>
      rcases hevents with ⟨rfl, -⟩ | ⟨rfl, -⟩
      · rw [List.map_append]
        exact List.subset_append_left _ _
      · exact List.Subset.refl _
  | _ => exact List.Subset.refl _

/-- **The tables stay well-formed.** -/
lemma Effect.wellFormed {s t : Store} {c : Call} (h : s.WellFormed) (heffect : Effect s c t) :
    t.WellFormed := by
  have hsubset := heffect.events_subset
  cases heffect with
  | unchanged => exact h
  | create _ _ hnew =>
      refine ⟨Table.nodup_append_singleton h.bindings hnew, h.events, h.activations,
        fun a ha => ?_, h.sourced⟩
      rw [List.map_append]
      exact List.mem_append_left _ (h.bound a ha)
  | respecify => exact h.updateBinding fun _ _ => rfl
  | setStatus => exact h.updateBinding fun _ hb => hb
  | pause =>
      refine Store.WellFormed.update ?_ (keepsKeys_cancelPaused _ _)
      exact h.updateBinding fun _ hb => hb
  | admitEvent _ _ hevents hbindings hrun =>
      obtain ⟨new, rfl, hnew, hnodup⟩ := admitted_activations hrun
      refine ⟨h.bindings, ?_, hnodup h.activations, fun a ha => ?_, fun a ha => ?_⟩
      · rcases hevents with ⟨rfl, hnone⟩ | ⟨rfl, -⟩
        · exact Table.nodup_append_singleton h.events hnone
        · exact h.events
      · rcases List.mem_append.mp ha with ha | ha
        · exact h.bound a ha
        · obtain ⟨b, hb, due, rfl⟩ := hnew a ha
          exact List.mem_map_of_mem (hbindings b hb).1
      · rcases List.mem_append.mp ha with ha | ha
        · exact hsubset (h.sourced a ha)
        · obtain ⟨b, hb, due, rfl⟩ := hnew a ha
          rcases hevents with ⟨rfl, -⟩ | ⟨rfl, row, hrow, -⟩
          · simp [newActivation]
          · exact List.mem_map.mpr ⟨row, Table.mem_of_row hrow, Store.key_of_event hrow⟩
  | recover => exact h.recover _
  | lease => exact (h.recover _).update (keepsKeys_lease _ _ _ _)
  | admitSop =>
      refine Store.WellFormed.withReceipts ?_ _
      exact h.update (keepsKeys_admitSop _ _)
  | fail => exact h.update (keepsKeys_fail _ _ _ _ _)
  | resolve =>
      refine Store.WellFormed.withReceipts ?_ _
      exact h.update (keepsKeys_resolve _ _)
  | unblock => exact h.update (keepsKeys_unblock _ _)

/-! ### The row of an activation -/

section

omit [FloatText] [Digest] [IsoTime]

/-- The row of an activation behind the recovery of a claim. -/
def recoverRow (s : Store) (now : String) (a : Activation) : Activation :=
  if s.Overdue now [.paused] a then a.cancelPaused "binding_paused_after_lease_expiry" now
  else if s.Overdue now [.active, .retired] a then a.recover now
  else a

lemma row_recover (s : Store) (now id : String) :
    (s.recover now).activation id = (s.activation id).map (recoverRow s now) := by
  rw [Store.recover, row_updateActivations, row_updateActivations, Option.map_map]
  rotate_left
  · exact fun _ => rfl
  · exact fun _ => rfl
  congr 1
  funext a
  by_cases hpaused : s.Overdue now [.paused] a
  · rw [Function.comp_apply, if_pos hpaused, recoverRow, if_pos hpaused, if_neg]
    rintro ⟨hleased, -⟩
    cases hleased
  · rw [Function.comp_apply, if_neg hpaused, recoverRow, if_neg hpaused]
    rfl

end

/-- What a call does to the row of an activation that is there. -/
inductive Move (s : Store) (c : Call) (a : Activation) : Activation → Prop
  | keep (htool : c.tool ≠ .activationClaim) : Move s c a a
  | quiesce {now : String} (htool : c.tool = .bindingPause)
      (hquiesced : a.QuiescedBy a.bindingId now) :
      Move s c a (a.cancelPaused "binding_paused_before_admission" now)
  | recover {now : String} (htool : c.tool = .activationClaim)
      (hnow : formatIso c.env.now = .ok now) (hleased : leasedBy s c ≠ some a.activationId) :
      Move s c a (recoverRow s now a)
  | lease {now consumer expires : String} (htool : c.tool = .activationClaim)
      (hnow : formatIso c.env.now = .ok now) (hleased : leasedBy s c = some a.activationId)
      (hclaimable : (s.recover now).Claimable now (recoverRow s now a)) :
      Move s c a ((recoverRow s now a).lease consumer c.env.token expires now)
  | admitSop {run now : String} (htool : c.tool = .activationAdmitSop)
      (hleased : a.status = .leased) : Move s c a (a.admitSop run now)
  | fail {due error now : String} {b : Binding} {retry : Bool} (htool : c.tool = .activationFail)
      (hid : trimmedText c.args "activation_id" = some a.activationId)
      (hleased : a.status = .leased) (hb : s.binding a.bindingId = some b)
      (hretry : retry → a.attemptCount + 1 < b.spec.maxAttempts) :
      Move s c a (a.fail retry (a.attemptCount + 1) due error now)
  | resolve {outcome now : String} (htool : c.tool = .activationResolve)
      (hadmitted : a.status = .admitted) : Move s c a (a.resolve outcome now)
  | unblock {due now : String} (htool : c.tool = .activationUnblock)
      (hid : trimmedText c.args "activation_id" = some a.activationId)
      (hblocked : a.status = .blocked) : Move s c a (a.unblock due now)

lemma leasedBy_eq_none {s : Store} {c : Call} (h : c.tool ≠ .activationClaim) :
    leasedBy s c = none := by
  rw [leasedBy]
  split
  · contradiction
  · rfl

omit [FloatText] [Digest] [IsoTime] in
/-- The row behind an update, from the row before it. -/
lemma updated_row {s : Store} {p : Activation → Prop} [DecidablePred p]
    {f : Activation → Activation} (hf : KeepsKeys f) {id : String} {a : Activation}
    (ha : s.activation id = some a) :
    (s.updateActivations p f).activation id = some (if p a then f a else a) := by
  rw [row_updateActivations hf.id, ha]
  rfl

/-- A row that meets the condition of an update moves with it, another one stays. -/
lemma move_of_update {s : Store} {c : Call} (htool : c.tool ≠ .activationClaim)
    {p : Activation → Prop} [DecidablePred p] {f : Activation → Activation} (hf : KeepsKeys f)
    {id : String} {a : Activation} (ha : s.activation id = some a) (hmove : p a → Move s c a (f a))
    {rows : Store} (hrows : rows.activations = s.activations) :
    ∃ b, (rows.updateActivations p f).activation id = some b ∧ Move s c a b := by
  have hrow : rows.activation id = some a := by rwa [Store.activation, hrows]
  refine ⟨_, updated_row hf hrow, ?_⟩
  split_ifs with hp
  · exact hmove hp
  · exact .keep htool

/-- **A row stays in its table, and changes only in the ways of a move.** -/
theorem move_of_effect {s t : Store} {c : Call} (hs : s.WellFormed) (h : Effect s c t)
    {id : String} {a : Activation} (ha : s.activation id = some a) :
    ∃ b, t.activation id = some b ∧ Move s c a b := by
  have hid : a.activationId = id := Store.key_of_activation ha
  -- the row that a call has looked up is the row of its id
  have hsame : ∀ {id' : String} {a' : Activation}, s.activation id' = some a' →
      a.activationId = id' → a' = a := fun ha' h => by
    rw [← h, hid, ha] at ha'
    exact (Option.some.inj ha').symm
  cases h with
  | unchanged htool => exact ⟨a, ha, .keep (by rcases htool with h | h <;> simp [h])⟩
  | create htool => exact ⟨a, ha, .keep (by simp [htool])⟩
  | respecify htool => exact ⟨a, ha, .keep (by simp [htool])⟩
  | setStatus htool => exact ⟨a, ha, .keep (by rcases htool with h | h <;> simp [h])⟩
  | pause htool =>
      refine move_of_update (by simp [htool]) (keepsKeys_cancelPaused _ _) ha (fun hp => ?_) rfl
      obtain ⟨rfl, hquiesced⟩ := hp
      exact .quiesce htool ⟨rfl, hquiesced⟩
  | admitEvent htool _ _ _ hrun =>
      obtain ⟨new, rfl, -, -⟩ := admitted_activations hrun
      exact ⟨a, Table.row_append_of_some new ha, .keep (by simp [htool])⟩
  | recover htool hnow hleased =>
      rw [row_recover, ha]
      exact ⟨_, rfl, .recover htool hnow (by simp [hleased])⟩
  | @lease now consumer expires claimed htool hnow hmem hclaimable hleased =>
      have hrow : (s.recover now).activation id = some (recoverRow s now a) := by
        rw [row_recover, ha]
        rfl
      refine ⟨_, updated_row (keepsKeys_lease _ _ _ _) hrow, ?_⟩
      have hid' : (recoverRow s now a).activationId = id := Store.key_of_activation hrow
      by_cases hclaimed : claimed.activationId = id
      · have hrow' := Table.row_of_mem (hs.recover now).activations hmem
        rw [hclaimed] at hrow'
        obtain rfl : recoverRow s now a = claimed := Option.some.inj (hrow.symm.trans hrow')
        rw [if_pos ⟨rfl, hclaimable.1⟩]
        exact .lease htool hnow (by rw [hleased, hid', hid]) hclaimable
      · rw [if_neg fun h => hclaimed (h.1.symm.trans hid')]
        refine .recover htool hnow fun h => hclaimed ?_
        rw [hleased, Option.some.injEq] at h
        exact h.trans hid
  | admitSop htool ha' hleased =>
      refine move_of_update (by simp [htool]) (keepsKeys_admitSop _ _) ha (fun hp => ?_) rfl
      exact .admitSop htool (hsame ha' hp ▸ hleased)
  | fail htool hid' ha' hleased hb hretry =>
      refine move_of_update (by simp [htool]) (keepsKeys_fail _ _ _ _ _) ha (fun hp => ?_) rfl
      obtain rfl := hsame ha' hp
      exact .fail htool (hp ▸ hid') hleased hb hretry
  | resolve htool ha' hadmitted =>
      refine move_of_update (by simp [htool]) (keepsKeys_resolve _ _) ha (fun hp => ?_) rfl
      exact .resolve htool (hsame (Table.row_of_mem hs.activations ha') hp ▸ hadmitted)
  | unblock htool hid' ha' hblocked =>
      refine move_of_update (by simp [htool]) (keepsKeys_unblock _ _) ha (fun hp => ?_) rfl
      obtain rfl := hsame ha' hp
      exact .unblock htool (hp ▸ hid') hblocked

/-- A fresh activation, with the event and the binding that it is for. -/
structure Created (s : Store) (c : Call) (t : Store) (a : Activation) (event : SourceEvent)
    (b : Binding) : Prop where
  tool : c.tool = .eventAdmit
  mem : b ∈ s.bindings
  active : b.status = .active
  bindings : t.bindings = s.bindings
  event_row : ∃ r, t.event event.eventId = some r ∧
    (r.event = event ∨ s.event event.eventId = some r ∧ r.digest = digest (.object event.fields))
  fresh : ∃ due now, a = newActivation b event due now

/-- **A row that was not there is a fresh activation of an active binding.** -/
theorem created_of_effect {s t : Store} {c : Call} (h : Effect s c t) {id : String}
    (hnone : s.activation id = none) {a : Activation} (ha : t.activation id = some a) :
    ∃ event b, Created s c t a event b := by
  have hupdate : ∀ {rows : Store} {p : Activation → Prop} [DecidablePred p]
      {f : Activation → Activation}, KeepsKeys f → rows.activation id = none →
      (rows.updateActivations p f).activation id = none := fun hf hrows => by
    rw [row_updateActivations hf.id, hrows]
    rfl
  have hrecover : ∀ now, (s.recover now).activation id = none := fun now => by
    rw [row_recover, hnone]
    rfl
  have hcontra : ∀ {rows : Store}, rows.activation id = none → rows.activation id ≠ some a :=
    fun hrows h => by simp [hrows] at h
  cases h with
  | @admitEvent event now _ _ _ htool _ hevents hbindings hrun =>
      obtain ⟨new, rfl, hnew, -⟩ := admitted_activations hrun
      have hnewrow : Table.row (·.activationId) new id = some a := by
        have hrow : Table.row (·.activationId) (s.activations ++ new) id = some a := ha
        rwa [Table.row_append, show Table.row _ s.activations id = none from hnone] at hrow
      obtain ⟨b, hb, due, rfl⟩ := hnew a (Table.mem_of_row hnewrow)
      refine ⟨event, b, htool, (hbindings b hb).1, (hbindings b hb).2, rfl, ?_, due, _, rfl⟩
      rcases hevents with ⟨rfl, hnew⟩ | ⟨rfl, row, hrow, hdigest⟩
      · refine ⟨⟨event, digest (.object event.fields), now⟩, ?_, Or.inl rfl⟩
        rw [Store.event, Table.row_append, show Table.row _ s.events event.eventId = none from hnew,
          Table.row_singleton, if_pos rfl]
        rfl
      · exact ⟨row, hrow, Or.inr ⟨hrow, hdigest⟩⟩
  | unchanged | create | respecify | setStatus => exact absurd ha (hcontra hnone)
  | pause => exact absurd ha (hcontra (hupdate (keepsKeys_cancelPaused _ _) hnone))
  | recover => exact absurd ha (hcontra (hrecover _))
  | lease => exact absurd ha (hcontra (hupdate (keepsKeys_lease _ _ _ _) (hrecover _)))
  | admitSop => exact absurd ha (hcontra (hupdate (keepsKeys_admitSop _ _) hnone))
  | fail => exact absurd ha (hcontra (hupdate (keepsKeys_fail _ _ _ _ _) hnone))
  | resolve => exact absurd ha (hcontra (hupdate (keepsKeys_resolve _ _) hnone))
  | unblock => exact absurd ha (hcontra (hupdate (keepsKeys_unblock _ _) hnone))

omit [FloatText] [Digest] [IsoTime] in
/-- The recovery of a claim leaves what an activation was created with. -/
lemma keepsKeys_recoverRow (s : Store) (now : String) : KeepsKeys (recoverRow s now) := by
  constructor <;> intro a <;> rw [recoverRow] <;> split_ifs <;> rfl

/-- A move leaves what an activation was created with. -/
lemma Move.keeps {s : Store} {c : Call} {a b : Activation} (h : Move s c a b) :
    b.activationId = a.activationId ∧ b.bindingId = a.bindingId ∧
      b.sourceEventId = a.sourceEventId ∧ b.partitionKey = a.partitionKey := by
  have hkeeps : ∀ {f : Activation → Activation}, KeepsKeys f →
      (f a).activationId = a.activationId ∧ (f a).bindingId = a.bindingId ∧
        (f a).sourceEventId = a.sourceEventId ∧ (f a).partitionKey = a.partitionKey :=
    fun hf => ⟨hf.id a, hf.binding a, hf.event a, hf.partition a⟩
  cases h with
  | keep => exact ⟨rfl, rfl, rfl, rfl⟩
  | quiesce => exact hkeeps (keepsKeys_cancelPaused _ _)
  | recover => exact hkeeps (keepsKeys_recoverRow s _)
  | lease => exact hkeeps (keepsKeys_recoverRow s _)
  | admitSop => exact hkeeps (keepsKeys_admitSop _ _)
  | fail => exact hkeeps (keepsKeys_fail _ _ _ _ _)
  | resolve => exact hkeeps (keepsKeys_resolve _ _)
  | unblock => exact hkeeps (keepsKeys_unblock _ _)

omit [FloatText] [Digest] [IsoTime] in
lemma recoverRow_of_not_leased {s : Store} {now : String} {a : Activation}
    (h : a.status ≠ .leased) : recoverRow s now a = a := by
  rw [recoverRow, if_neg fun hover => h hover.1, if_neg fun hover => h hover.1]

/-- **What is terminal stays as it is.** -/
lemma Move.of_terminal {s : Store} {c : Call} {a b : Activation} (h : Move s c a b)
    (ha : a.status = .terminal) : b = a := by
  cases h with
  | keep => rfl
  | quiesce _ hquiesced => rcases hquiesced.2 with h | h <;> simp_all
  | recover => exact recoverRow_of_not_leased (by simp [ha])
  | lease _ _ _ hclaimable =>
      have hpending := hclaimable.1
      rw [recoverRow_of_not_leased (by simp [ha]), ha] at hpending
      cases hpending
  | admitSop _ hleased | fail _ _ hleased =>
      rw [ha] at hleased
      cases hleased
  | resolve _ hadmitted =>
      rw [ha] at hadmitted
      cases hadmitted
  | unblock _ _ hblocked =>
      rw [ha] at hblocked
      cases hblocked

/-- A call is refused and leaves the tables, or it has its effect. -/
theorem after_cases (s : Store) (c : Call) :
    s.after c = s ∧ leasedBy s c = none ∨ Effect s c (s.after c) := by
  rw [Store.after]
  cases hcall : s.call c with
  | error e =>
      refine Or.inl ⟨rfl, ?_⟩
      rw [leasedBy, hcall]
      cases c.tool <;> rfl
  | ok result => exact Or.inr (effect_of_call hcall)

omit [FloatText] [Digest] in
lemma format_of_formatIso {t : Instant} {s : String} (h : formatIso t = .ok s) :
    IsoTime.format t = some s := by
  rw [formatIso] at h
  cases hformat : IsoTime.format t with
  | some s' =>
      rw [hformat] at h
      cases h
      rfl
  | none =>
      rw [hformat] at h
      cases h

/-! ### Kinds of calls -/

/-- A call that is not refused. -/
def Succeeds (s : Store) (c : Call) : Prop := (s.call c).toOption.isSome

instance (s : Store) (c : Call) : Decidable (Succeeds s c) := inferInstanceAs (Decidable (_ = true))

lemma Succeeds.call {s : Store} {c : Call} (h : Succeeds s c) :
    ∃ v, s.call c = .ok (v, s.after c) := by
  rw [Succeeds] at h
  rw [Store.after]
  cases hcall : s.call c with
  | error e =>
      rw [hcall] at h
      cases h
  | ok result => exact ⟨result.1, rfl⟩

/-- A call hands out the activation. -/
def Leases (id : String) (s : Store) (c : Call) : Prop := leasedBy s c = some id

instance (id : String) (s : Store) (c : Call) : Decidable (Leases id s c) :=
  inferInstanceAs (Decidable (_ = _))

/-- A call unblocks the activation. -/
def Unblocks (id : String) (c : Call) : Prop :=
  c.tool = .activationUnblock ∧ trimmedText c.args "activation_id" = some id

instance (id : String) (c : Call) : Decidable (Unblocks id c) :=
  inferInstanceAs (Decidable (_ ∧ _))

/-- An activation that is handed out is there. -/
lemma row_of_leases {s : Store} {c : Call} {id : String} (h : Leases id s c) :
    ∃ a, s.activation id = some a := by
  have hrow : ∀ {now : String} {a : Activation}, a ∈ (s.recover now).activations →
      ∃ b, s.activation a.activationId = some b := by
    intro now a ha
    obtain ⟨b, hb⟩ : ∃ b, (s.recover now).activation a.activationId = some b :=
      Table.exists_row_of_mem ha
    rw [row_recover] at hb
    obtain ⟨b', hb', -⟩ := Option.map_eq_some_iff.mp hb
    exact ⟨b', hb'⟩
  rcases after_cases s c with ⟨-, hnone⟩ | heffect
  · rw [Leases, hnone] at h
    cases h
  · have hclaim : c.tool = .activationClaim := by
      by_contra htool
      rw [Leases, leasedBy_eq_none htool] at h
      cases h
    rw [Leases] at h
    generalize s.after c = t at heffect
    cases heffect with
    | recover _ _ hnone =>
        rw [hnone] at h
        cases h
    | lease _ _ ha _ hleased =>
        rw [hleased, Option.some.injEq] at h
        exact h ▸ hrow ha
    | unchanged htool | setStatus htool => rcases htool with htool | htool <;> simp [htool] at hclaim
    | create htool | respecify htool | pause htool | admitEvent htool | admitSop htool | fail htool
    | resolve htool | unblock htool => simp [htool] at hclaim

/-- **The tables are well-formed behind every call.** -/
lemma Store.WellFormed.after {s : Store} (h : s.WellFormed) (c : Call) : (s.after c).WellFormed := by
  rcases after_cases s c with ⟨heq, -⟩ | heffect
  · rwa [heq]
  · exact heffect.wellFormed h

/-- The stores of the runs of calls that begin with a prepared one. -/
def Reachable (s : Store) : Prop := ∃ calls, s = Calls.run Store.after Store.empty calls

lemma Reachable.wellFormed {s : Store} (h : Reachable s) : s.WellFormed := by
  obtain ⟨calls, rfl⟩ := h
  have hrun : ∀ (t : Store) (calls : List Call), t.WellFormed →
      (Calls.run Store.after t calls).WellFormed := by
    intro t calls
    induction calls generalizing t with
    | nil => exact id
    | cons c rest ih => exact fun ht => ih _ (ht.after c)
  exact hrun _ _ .empty

/-! ### Sample calls -/

section Samples

omit [FloatText] [Digest] [IsoTime]

/-- A stand-in for the digest: the text backwards, of which an id takes the end. -/
@[reducible] def backwards : Digest := ⟨fun s => String.ofList s.toList.reverse⟩

/-- The clocks of a call, so many milliseconds into the year. -/
def sampleEnv (ms : ℤ) : Env :=
  ⟨milliseconds (1767225600000 + ms), milliseconds (1767225600000 + ms), "token-" ++ toString ms⟩

def sampleBinding (concurrency : Concurrency) (maxAttempts : ℕ) : Map :=
  [("binding_id", .string "sync"), ("trigger_kind", .string "completion"),
    ("source_topic", .string "done"), ("target_sop_id", .string "sync"),
    ("target_template_version", .string "v1"), ("concurrency", .string concurrency.text),
    ("max_attempts", .ofNat maxAttempts)]

def sampleEvent (id partition outcome : String) : Map :=
  [("occurred_at", .string "2026-01-01T00:00:00.000Z"), ("aggregate_revision", .ofNat 1),
    ("schema_version", .ofNat 1), ("event_id", .string id), ("topic", .string "done"),
    ("partition_key", .string partition), ("aggregate_id", .string id),
    ("causation_id", .string id), ("idempotency_key", .string id),
    ("payload", .object [("outcome", .string outcome)])]

/-- A claim at a time, under a lease of thirty seconds. -/
def sampleClaim (ms : ℤ) : Call :=
  ⟨.activationClaim, sampleEnv ms, [("consumer_id", .string "worker")]⟩

end Samples

end Scheduler

end McpSurfaces
