import McpSurfaces.Foundation.Calendar
import McpSurfaces.Scheduler.Moves

/-!
The due times of activations: the delay behind an event, and the one behind an attempt that failed.

* `Plans`, `GivesBack`: an admission that gets to a binding, a failure that gets to its delay.
* `DueTime`: a due time that is written, and the instant it is computed from.
* **`due_times_iff`**: a call panics exactly if its due time is behind the year 9999; the texts of
  due times compare as their instants.
-/

namespace McpSurfaces

namespace Scheduler

open EventLedger (Failure Digest)
open Lists IsoTime

/-! ### Delays before an attempt -/

/-- The delay before the attempt of a number; the exponent of both its computations is at most
30. -/
def retryDelay (spec : BindingSpec) (attempt : ℕ) : ℕ :=
  backoff spec.retryBaseMs spec.retryMaxMs (min attempt 31)

/-- The attempt that an event reports, the first one if it reports none. -/
def reportedAttempt (payload : Map) : ℕ :=
  (max (((payload.get "attempt").bind Value.asI64).getD 1) 1).toNat

/-- The delay of an event that reports a failure. -/
lemma delayFor_retry (b : Binding) (payload : Map) :
    delayFor b "retryable_failure" payload = retryDelay b.spec (reportedAttempt payload) := by
  have hclamp (n : ℤ) : (min (max n 1) 31).toNat = min (max n 1).toNat 31 := by omega
  rw [delayFor, if_pos rfl, retryDelay, reportedAttempt, ← hclamp]

/-- **The delay grows with the attempt.** -/
lemma retryDelay_mono (spec : BindingSpec) {m n : ℕ} (h : m ≤ n) :
    retryDelay spec m ≤ retryDelay spec n := by
  have hpower : spec.retryBaseMs * 2 ^ (min m 31 - 1) ≤ spec.retryBaseMs * 2 ^ (min n 31 - 1) :=
    Nat.mul_le_mul_left _ (Nat.pow_le_pow_right (by decide) (by omega))
  rw [retryDelay, retryDelay, backoff, backoff]
  exact min_le_min_right _ (min_le_min_right _ hpower)

/-- The delay is at most the cap. -/
lemma retryDelay_le (spec : BindingSpec) (attempt : ℕ) :
    retryDelay spec attempt ≤ spec.retryMaxMs := min_le_right _ _

/-! ### Calls that do not panic -/

/-- A refusal, and not a panic. -/
def Refuses : Failure → Prop
  | .error _ => True
  | .panic _ => False

instance : DecidablePred Refuses := fun failure =>
  match failure with
  | .error _ => .isTrue trivial
  | .panic _ => .isFalse id

/-- A call that answers or refuses. -/
def Returns {α : Type} (x : Except Failure α) : Prop := Fails Refuses x

instance {α : Type} (x : Except Failure α) : Decidable (Returns x) :=
  match x with
  | .ok a => .isTrue (Fails.ok a)
  | .error failure => decidable_of_iff (Refuses failure) ⟨Fails.error, fun h => h failure rfl⟩

lemma returns_required (args : Map) (field : String) : Returns (required args field) := by
  rw [required]
  cases trimmedText args field
  · exact Fails.error trivial
  · exact Fails.ok _

lemma returns_requireBinding (s : Store) (id : String) : Returns (s.requireBinding id) := by
  rw [Store.requireBinding]
  cases s.binding id
  · exact Fails.error trivial
  · exact Fails.ok _

lemma returns_requireActivation (s : Store) (id : String) : Returns (s.requireActivation id) := by
  rw [Store.requireActivation]
  cases s.activation id
  · exact Fails.error trivial
  · exact Fails.ok _

section Dates

variable [IsoTime]

lemma returns_parseIso (text : String) : Returns (parseIso text) := by
  rw [parseIso]
  cases IsoTime.parse text
  · exact Fails.error trivial
  · exact Fails.ok _

/-- **From the year 0 on, a date is written up to the end of the year 9999.** -/
lemma returns_formatIso_iff (hf : IsoTime.Lawful) {t : ℤ} (ht : yearZero ≤ t) :
    Returns (formatIso t) ↔ t ≤ lastInstant := by
  rw [← not_lt, ← hf.format_eq_none_iff ht, formatIso]
  cases IsoTime.format t with
  | some text => exact ⟨fun _ h => (by cases h), fun _ => Fails.ok _⟩
  | none => exact ⟨fun h _ => h _ rfl, fun h => absurd rfl h⟩

/-- The clocks of a call read dates of the years 0 to 9999. -/
structure InRange (env : Env) : Prop where
  now_from : yearZero ≤ env.now
  now_until : env.now ≤ lastInstant
  check_from : yearZero ≤ env.check
  check_until : env.check ≤ lastInstant

lemma returns_requireLeased (hf : IsoTime.Lawful) {env : Env} (henv : InRange env) (s : Store)
    (id consumer token : String) : Returns (requireLeased s env id consumer token) := by
  refine (Fails.bind_iff (returns_requireActivation s id)).mpr fun a _ => ?_
  refine (Fails.guard_iff trivial).mpr fun _ => ?_
  refine (Fails.guard_iff trivial).mpr fun _ => ?_
  refine (Fails.guard_iff trivial).mpr fun _ => ?_
  have hcheck : Returns (formatIso env.check) :=
    (returns_formatIso_iff hf henv.check_from).mpr henv.check_until
  refine (Fails.bind_iff hcheck).mpr fun _ _ => ?_
  exact (Fails.guard_iff trivial).mpr fun _ => Fails.ok _

end Dates

/-! ### Admissions -/

section Calls

variable [FloatText] [Digest] [IsoTime]

omit [FloatText] [Digest] [IsoTime] in
lemma returns_admitSource (s : Store) (event : SourceEvent) (eventDigest now : String) :
    Returns (admitSource s event eventDigest now) := by
  rw [admitSource]
  split
  · split_ifs
    · exact Fails.error trivial
    · exact Fails.ok _
  · exact Fails.ok _

/-- The active bindings of the topic of an event, in the order of their ids. -/
def Store.bindingsFor (s : Store) (event : SourceEvent) : List Binding :=
  (s.bindings.filter fun b =>
    b.spec.sourceTopic = event.topic ∧ b.status = .active).insertionSort
      fun a b => a.spec.bindingId ≤ b.spec.bindingId

/-- A binding that is to have an activation for an event, and has none yet. -/
structure Needs (event : SourceEvent) (activations : List Activation) (b : Binding) : Prop where
  matched : bindingMatches b event = true
  absent :
    Table.row (·.activationId) activations (activationIdOf b.spec.bindingId event.eventId) = none

/-- An admission gets to a binding that needs an activation, with the activations that it has made
until then. -/
structure Plans (s : Store) (env : Env) (event : SourceEvent) (activations : List Activation)
    (b : Binding) : Prop where
  reached : ∃ now events before rest, formatIso env.now = .ok now ∧
    admitSource s event (digest (.object event.fields)) now = .ok events ∧
    s.bindingsFor event = before ++ b :: rest ∧
    before.foldlM (admitFor event now) s.activations = .ok activations
  needs : Needs event activations b

/-- The due time of an event in the years 0 to 9999. -/
def DueInRange (event : SourceEvent) (b : Binding) : Prop :=
  ∀ t : ℤ, IsoTime.parse event.occurredAt = some t →
    t + milliseconds (delayFor b (event.outcome.getD "default") event.payload) ≤ lastInstant

omit [Digest] in
/-- What an event has read of the time of its occurrence is not before the year 0. -/
lemma yearZero_le_occurred (hf : IsoTime.Lawful) {args : Map} {event : SourceEvent} {t : ℤ}
    (hevent : normalizeEvent args = .ok event) (ht : IsoTime.parse event.occurredAt = some t) :
    yearZero ≤ t := by
  obtain ⟨u, hu⟩ : ∃ u : ℤ, IsoTime.format u = some event.occurredAt := by
    obtain ⟨_, -, h⟩ := bind_eq_ok hevent
    obtain ⟨occurred, -, h⟩ := bind_eq_ok h
    obtain ⟨_, -, h⟩ := bind_eq_ok h
    obtain ⟨-, h⟩ := guard_ok h
    obtain ⟨_, -, h⟩ := bind_eq_ok h
    obtain ⟨-, h⟩ := guard_ok h
    obtain ⟨_, -, h⟩ := bind_eq_ok h
    obtain ⟨_, -, h⟩ := bind_eq_ok h
    obtain ⟨_, -, h⟩ := bind_eq_ok h
    obtain ⟨_, -, h⟩ := bind_eq_ok h
    obtain ⟨_, -, h⟩ := bind_eq_ok h
    obtain ⟨_, -, h⟩ := bind_eq_ok h
    obtain ⟨_, -, h⟩ := bind_eq_ok h
    obtain ⟨occurredAt, hat, h⟩ := bind_eq_ok h
    cases h
    exact ⟨occurred, format_of_formatIso hat⟩
  rcases le_or_gt yearZero u with hu' | hu'
  · rw [hf.parse_format u _ hu' hu] at ht
    have hms := Option.some.inj ht
    rw [milliseconds] at hms
    rw [yearZero, milliseconds] at hu' ⊢
    omega
  · rw [hf.parse_before u _ hu' hu] at ht
    cases ht

omit [FloatText] [Digest] [IsoTime] in
lemma returns_insertActivation (activations : List Activation) (a : Activation) :
    Returns (insertActivation activations a) := by
  rw [insertActivation]
  split_ifs
  · exact Fails.error trivial
  · exact Fails.ok _

/-- A binding is planned without a panic exactly if its due time is in range. -/
lemma returns_admitFor_iff (hf : IsoTime.Lawful) {args : Map} {event : SourceEvent}
    (hevent : normalizeEvent args = .ok event) (now : String) (activations : List Activation)
    (b : Binding) : Returns (admitFor event now activations b) ↔
      (Needs event activations b → DueInRange event b) := by
  rw [admitFor]
  by_cases hmatched : bindingMatches b event = true
  swap
  · rw [if_pos (by simpa using hmatched)]
    exact ⟨fun _ hneeds => absurd hneeds.matched hmatched, fun _ => Fails.ok _⟩
  rw [if_neg (by simpa using hmatched)]
  by_cases habsent : Table.row (·.activationId) activations
      (activationIdOf b.spec.bindingId event.eventId) = none
  swap
  · rw [if_pos (Option.isSome_iff_ne_none.mpr habsent)]
    exact ⟨fun _ hneeds => absurd hneeds.absent habsent, fun _ => Fails.ok _⟩
  rw [if_neg (by simpa using habsent)]
  refine (Fails.bind_iff (returns_parseIso _)).trans ?_
  constructor
  · intro h _ t ht
    have hread : parseIso event.occurredAt = .ok t := by rw [parseIso, ht]
    have hfrom := yearZero_le_occurred hf hevent ht
    have hdue : Returns (formatIso
        (t + milliseconds (delayFor b (event.outcome.getD "default") event.payload))) :=
      Fails.of_bind (h t hread)
    exact (returns_formatIso_iff hf (by rw [milliseconds]; omega)).mp hdue
  · intro h t hread
    have ht : IsoTime.parse event.occurredAt = some t := by
      rw [parseIso] at hread
      split at hread
      · next hparse => rw [hparse, Except.ok.inj hread]
      · cases hread
    have hfrom := yearZero_le_occurred hf hevent ht
    have hdue := (returns_formatIso_iff hf (by rw [milliseconds]; omega)).mpr
      (h ⟨hmatched, habsent⟩ t ht)
    exact (Fails.bind_iff hdue).mpr fun due _ => returns_insertActivation _ _

/-- **An admission panics exactly if a due time is behind the year 9999.** -/
lemma returns_eventAdmit_iff (hf : IsoTime.Lawful) {env : Env} (henv : InRange env) {args : Map}
    {event : SourceEvent} (hevent : normalizeEvent args = .ok event) (s : Store) :
    Returns (eventAdmit s env args) ↔
      ∀ activations b, Plans s env event activations b → DueInRange event b := by
  have hnow : Returns (formatIso env.now) :=
    (returns_formatIso_iff hf henv.now_from).mpr henv.now_until
  rw [eventAdmit, hevent]
  refine (Fails.bind_iff hnow).trans ?_
  constructor
  · rintro h activations b ⟨⟨now, events, before, rest, hwritten, hsource, hsplit, hrun⟩, hneeds⟩
    have hrest := (Fails.bind_iff (returns_admitSource s event _ now)).mp (h now hwritten) _ hsource
    have hfold : Returns ((s.bindingsFor event).foldlM (admitFor event now) s.activations) :=
      Fails.of_bind hrest
    exact (returns_admitFor_iff hf hevent now activations b).mp
      (Fails.foldlM_iff.mp hfold before b rest activations hsplit hrun) hneeds
  · intro h now hwritten
    refine (Fails.bind_iff (returns_admitSource s event _ now)).mpr fun events hsource => ?_
    have hfold : Returns ((s.bindingsFor event).foldlM (admitFor event now) s.activations) := by
      refine Fails.foldlM_iff.mpr fun before b rest activations hsplit hrun => ?_
      refine (returns_admitFor_iff hf hevent now activations b).mpr fun hneeds => ?_
      exact h activations b ⟨⟨now, events, before, rest, hwritten, hsource, hsplit, hrun⟩, hneeds⟩
    exact (Fails.bind_iff hfold).mpr fun _ _ => Fails.ok _

/-! ### Failures -/

/-- A call that reports a failure gets to the delay of its activation. -/
structure GivesBack (s : Store) (env : Env) (args : Map) (a : Activation) (b : Binding) : Prop where
  leased : ∃ id consumer token failure, required args "activation_id" = .ok id ∧
    required args "consumer_id" = .ok consumer ∧ required args "lease_token" = .ok token ∧
    required args "error" = .ok failure ∧ requireLeased s env id consumer token = .ok a
  bound : s.requireBinding a.bindingId = .ok b

omit [FloatText] [Digest] in
/-- **A failure panics exactly if the next attempt is behind the year 9999.** -/
lemma returns_activationFail_iff (hf : IsoTime.Lawful) {env : Env} (henv : InRange env)
    (s : Store) (args : Map) : Returns (activationFail s env args) ↔
      ∀ a b, GivesBack s env args a b →
        env.now + milliseconds (retryDelay b.spec (a.attemptCount + 1)) ≤ lastInstant := by
  have hnow : Returns (formatIso env.now) :=
    (returns_formatIso_iff hf henv.now_from).mpr henv.now_until
  obtain ⟨now, hwritten⟩ : ∃ now, formatIso env.now = .ok now := by
    cases hwritten : formatIso env.now with
    | ok now => exact ⟨now, rfl⟩
    | error failure =>
        rw [formatIso] at hwritten
        have hfrom := hf.format_eq_none_iff henv.now_from
        split at hwritten
        · cases hwritten
        · next hnone => exact absurd henv.now_until (not_le.mpr (hfrom.mp hnone))
  have hfrom (delay : ℕ) : yearZero ≤ env.now + milliseconds delay := by
    have := henv.now_from
    rw [milliseconds]
    omega
  constructor
  · rintro h a b ⟨⟨id, consumer, token, failure, hid, hconsumer, htoken, hfailure, hleased⟩, hbound⟩
    have h := (Fails.bind_iff (returns_required _ _)).mp h id hid
    have h := (Fails.bind_iff (returns_required _ _)).mp h consumer hconsumer
    have h := (Fails.bind_iff (returns_required _ _)).mp h token htoken
    have h := (Fails.bind_iff (returns_required _ _)).mp h failure hfailure
    have h := (Fails.bind_iff hnow).mp h now hwritten
    have h := (Fails.bind_iff (returns_requireLeased hf henv _ _ _ _)).mp h a hleased
    have h := (Fails.bind_iff (returns_requireBinding _ _)).mp h b hbound
    exact (returns_formatIso_iff hf (hfrom _)).mp (Fails.of_bind h)
  · intro h
    refine (Fails.bind_iff (returns_required _ _)).mpr fun id hid => ?_
    refine (Fails.bind_iff (returns_required _ _)).mpr fun consumer hconsumer => ?_
    refine (Fails.bind_iff (returns_required _ _)).mpr fun token htoken => ?_
    refine (Fails.bind_iff (returns_required _ _)).mpr fun failure hfailure => ?_
    refine (Fails.bind_iff hnow).mpr fun now' _ => ?_
    refine (Fails.bind_iff (returns_requireLeased hf henv _ _ _ _)).mpr fun a hleased => ?_
    refine (Fails.bind_iff (returns_requireBinding _ _)).mpr fun b hbound => ?_
    have hdue := h a b ⟨⟨id, consumer, token, failure, hid, hconsumer, htoken, hfailure, hleased⟩,
      hbound⟩
    refine (Fails.bind_iff ((returns_formatIso_iff hf (hfrom _)).mpr hdue)).mpr fun due _ => ?_
    exact (Fails.bind_iff (returns_requireActivation _ _)).mpr fun _ _ => Fails.ok _

/-! ### Due times -/

/-- A due time that an admission or a failure writes, and the instant it is computed from. -/
inductive DueTime : String → ℤ → Prop
  | admitted {args : Map} {event : SourceEvent} {b : Binding} {now : String}
      {activations : List Activation} {a : Activation} {t : ℤ}
      (hevent : normalizeEvent args = .ok event)
      (hadmission : admitFor event now activations b = .ok (activations ++ [a]))
      (ht : IsoTime.parse event.occurredAt = some t) :
      DueTime a.dueAt (t + milliseconds (delayFor b (event.outcome.getD "default") event.payload))
  | failed {s s' : Store} {env : Env} {args : Map} {v : Value} {a a' : Activation} {b : Binding}
      (henv : InRange env) (hback : GivesBack s env args a b)
      (hfail : activationFail s env args = .ok (v, s'))
      (ha : s'.activation a.activationId = some a') :
      DueTime a'.dueAt (env.now + milliseconds (retryDelay b.spec (a.attemptCount + 1)))

/-- What an admission writes for a binding. -/
lemma admitFor_due {event : SourceEvent} {b : Binding} {now : String}
    {activations : List Activation} {a : Activation} {t : ℤ}
    (h : admitFor event now activations b = .ok (activations ++ [a]))
    (ht : IsoTime.parse event.occurredAt = some t) :
    IsoTime.format (t + milliseconds (delayFor b (event.outcome.getD "default") event.payload)) =
      some a.dueAt := by
  have hgrown : activations ≠ activations ++ [a] := by simp
  rw [admitFor] at h
  split_ifs at h
  · exact absurd (Except.ok.inj h) hgrown
  · exact absurd (Except.ok.inj h) hgrown
  · obtain ⟨occurred, hread, hrest⟩ := bind_eq_ok h
    rw [parseIso, ht] at hread
    obtain rfl := Except.ok.inj hread
    obtain ⟨due, hdue, hinsert⟩ := bind_eq_ok hrest
    rw [insertActivation] at hinsert
    split_ifs at hinsert
    obtain ⟨-, hone⟩ := List.append_inj' (Except.ok.inj hinsert) rfl
    rw [← (List.cons.inj hone).1]
    exact format_of_formatIso hdue

omit [FloatText] [Digest] in
/-- What a failure writes for its activation. -/
lemma activationFail_due {s s' : Store} {env : Env} {args : Map} {v : Value} {a a' : Activation}
    {b : Binding} (hback : GivesBack s env args a b)
    (h : activationFail s env args = .ok (v, s')) (ha : s'.activation a.activationId = some a') :
    IsoTime.format (env.now + milliseconds (retryDelay b.spec (a.attemptCount + 1))) =
      some a'.dueAt := by
  obtain ⟨⟨id, consumer, token, failure, hid, hconsumer, htoken, -, hleased⟩, hbound⟩ := hback
  obtain ⟨id', hid', h⟩ := bind_eq_ok h
  obtain ⟨consumer', hconsumer', h⟩ := bind_eq_ok h
  obtain ⟨token', htoken', h⟩ := bind_eq_ok h
  obtain ⟨_, -, h⟩ := bind_eq_ok h
  obtain ⟨_, -, h⟩ := bind_eq_ok h
  obtain ⟨r, hleased', h⟩ := bind_eq_ok h
  obtain rfl := Except.ok.inj (hid.symm.trans hid')
  obtain rfl := Except.ok.inj (hconsumer.symm.trans hconsumer')
  obtain rfl := Except.ok.inj (htoken.symm.trans htoken')
  obtain rfl := Except.ok.inj (hleased.symm.trans hleased')
  obtain ⟨b', hbound', h⟩ := bind_eq_ok h
  obtain rfl := Except.ok.inj (hbound.symm.trans hbound')
  obtain ⟨due, hdue, h⟩ := bind_eq_ok h
  obtain ⟨_, -, h⟩ := bind_eq_ok h
  cases h
  have hrow := (requireLeased_ok hleased).1
  obtain rfl : a.activationId = id := Table.key_of_row hrow
  rw [Store.updateActivation, updated_row (keepsKeys_fail _ _ _ _ _) hrow, if_pos rfl] at ha
  rw [← Option.some.inj ha]
  exact format_of_formatIso hdue

/-- A due time is the text of its instant. -/
lemma DueTime.written (hf : IsoTime.Lawful) {due : String} {t : ℤ} (h : DueTime due t) :
    yearZero ≤ t ∧ IsoTime.format t = some due := by
  cases h with
  | admitted hevent hadmission ht =>
      have hfrom := yearZero_le_occurred hf hevent ht
      exact ⟨by rw [milliseconds]; omega, admitFor_due hadmission ht⟩
  | failed henv hback hfail ha =>
      have hfrom := henv.now_from
      exact ⟨by rw [milliseconds]; omega, activationFail_due hback hfail ha⟩

/-- **Due times.** An admission, or the report of a failure, panics exactly if the due time that it
computes is behind the year 9999. The delay before an attempt grows with it, up to the cap of its
binding, and the texts of due times compare as the milliseconds of their instants. -/
theorem due_times_iff (hf : IsoTime.Lawful) :
    (∀ (s : Store) (env : Env) (args : Map) (event : SourceEvent), InRange env →
      normalizeEvent args = .ok event → (Returns (eventAdmit s env args) ↔
        ∀ activations b, Plans s env event activations b → DueInRange event b)) ∧
    (∀ (s : Store) (env : Env) (args : Map), InRange env → (Returns (activationFail s env args) ↔
      ∀ a b, GivesBack s env args a b →
        env.now + milliseconds (retryDelay b.spec (a.attemptCount + 1)) ≤ lastInstant)) ∧
    (∀ (b : Binding) (payload : Map),
      delayFor b "retryable_failure" payload = retryDelay b.spec (reportedAttempt payload)) ∧
    (∀ (spec : BindingSpec) (m n : ℕ), m ≤ n →
      retryDelay spec m ≤ retryDelay spec n ∧ retryDelay spec n ≤ spec.retryMaxMs) ∧
    ∀ (due due' : String) (t t' : ℤ), DueTime due t → DueTime due' t' →
      (due ≤ due' ↔ t / 1000000 ≤ t' / 1000000) := by
  refine ⟨fun s env args event henv hevent => returns_eventAdmit_iff hf henv hevent s,
    fun s env args henv => returns_activationFail_iff hf henv s args,
    delayFor_retry, fun spec m n h => ⟨retryDelay_mono spec h, retryDelay_le spec n⟩, ?_⟩
  intro due due' t t' h h'
  obtain ⟨hfrom, hwritten⟩ := h.written hf
  obtain ⟨hfrom', hwritten'⟩ := h'.written hf
  exact hf.format_le_iff hfrom hfrom' hwritten hwritten'

end Calls

/-! ### Extreme delays -/

/-- A binding whose events are due after so many milliseconds. -/
def delayedBinding (delay : ℕ) : Call :=
  ⟨.bindingUpsert, sampleEnv 0,
    sampleBinding .singleton 1 ++ [("default_delay_ms", .ofNat delay)]⟩

section Concrete

variable [FloatText] [Digest] [IsoTime]

/-- The store behind a binding with a delay. -/
def delayedStore (delay : ℕ) : Store := Store.empty.after (delayedBinding delay)

/-- The admission of an event behind a binding with a delay. -/
def admitDelayed (delay : ℕ) : Except Failure (Value × Store) :=
  eventAdmit (delayedStore delay) (sampleEnv 1) (sampleEvent "e1" "p1" "done")

end Concrete

/-- An event is admitted whose activation is due after a day. -/
theorem due_times_of_day :
    letI := FloatText.fields
    letI := backwards
    letI := IsoTime.utc
    Returns (admitDelayed 86400000) := by
  let _ : FloatText := FloatText.fields
  let _ : Digest := backwards
  let _ : IsoTime := IsoTime.utc
  have henv : InRange (sampleEnv 1) := ⟨by decide, by decide, by decide, by decide⟩
  have hdelays : ∀ b ∈ (delayedStore 86400000).bindings,
      delayFor b "done" [("outcome", .string "done")] = 86400000 := by decide +kernel
  cases hevent : normalizeEvent (sampleEvent "e1" "p1" "done") with
  | error failure =>
      have haccepted : (normalizeEvent (sampleEvent "e1" "p1" "done")).toOption.isSome := by
        decide +kernel
      rw [hevent] at haccepted
      cases haccepted
  | ok event =>
      have hoccurred : (normalizeEvent (sampleEvent "e1" "p1" "done")).toOption.map
          (fun e => (e.occurredAt, e.payload)) =
          some ("2026-01-01T00:00:00.000Z", [("outcome", .string "done")]) := by decide +kernel
      rw [hevent] at hoccurred
      obtain ⟨hat, hpayload⟩ := Prod.mk.inj (Option.some.inj hoccurred)
      refine ((due_times_iff IsoTime.utc_lawful).1 _ _ _ event henv hevent).mpr ?_
      rintro activations b ⟨⟨-, -, before, rest, -, -, hsplit, -⟩, -⟩ t ht
      have hb : b ∈ (delayedStore 86400000).bindings := by
        have hmem : b ∈ (delayedStore 86400000).bindingsFor event := by
          rw [hsplit]
          exact List.mem_append_right _ List.mem_cons_self
        exact List.mem_of_mem_filter ((List.mem_insertionSort _).mp hmem)
      have hparse : utcInstant "2026-01-01T00:00:00.000Z" = some (milliseconds 1767225600000) := by
        decide +kernel
      rw [hat] at ht
      obtain rfl := Option.some.inj (hparse.symm.trans ht)
      rw [SourceEvent.outcome, hpayload]
      change _ + milliseconds (delayFor b "done" [("outcome", .string "done")]) ≤ _
      rw [hdelays b hb]
      decide

/-- With the greatest delay that a binding may have, the addition to the time of an event panics. -/
theorem greatest_delay_panics :
    letI := FloatText.fields
    letI := backwards
    letI := IsoTime.utc
    ¬ ∀ s, Reachable s → ∀ (env : Env) (args : Map) (event : SourceEvent), InRange env →
      normalizeEvent args = .ok event → Returns (eventAdmit s env args) := by
  let _ : FloatText := FloatText.fields
  let _ : Digest := backwards
  let _ : IsoTime := IsoTime.utc
  intro h
  have henv : InRange (sampleEnv 1) := ⟨by decide, by decide, by decide, by decide⟩
  have hpanics : ¬ Returns (admitDelayed 9223372036854775807) := by decide +kernel
  have haccepted : (normalizeEvent (sampleEvent "e1" "p1" "done")).toOption.isSome := by
    decide +kernel
  cases hevent : normalizeEvent (sampleEvent "e1" "p1" "done") with
  | error failure =>
      rw [hevent] at haccepted
      cases haccepted
  | ok event =>
      exact hpanics (h _ ⟨[delayedBinding 9223372036854775807], rfl⟩ _ _ event henv hevent)

end Scheduler

end McpSurfaces
