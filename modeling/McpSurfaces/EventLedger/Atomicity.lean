import McpSurfaces.EventLedger.Append
import McpSurfaces.Foundation.Calls

/-!
What an append that is refused leaves behind.

* `MarkerMet`: the append gets as far as its event, and meets a marker under the name of its key.
* **`append_atomic_iff`**: the refusal of an append leaves the event files as they are, but where a
  marker is met: there the event is written before the marker is refused.
* **`atomic_or_named`**: in a run of appends one meets a marker only after one whose key has its safe
  name.
-/

namespace McpSurfaces

namespace EventLedger

open Lists

section Atomicity

variable [FloatText] [FloatRead] [Digest]

/-- An append that is refused leaves the event files as they are, and what is read from them. -/
def Atomic (schema : String) (layout : LedgerLayout) (hashField : String) (directory : Directory)
    (listing : List (String × Record)) (call : AppendCall) : Prop :=
  let answer := appendEvent schema layout hashField directory listing call
  ∀ failure, answer.2 = .error failure →
    files layout answer.1.records = files layout directory.records

/-- An append that gets as far as its event, and meets a marker under the name of its key. -/
structure MarkerMet (schema : String) (layout : LedgerLayout) (hashField : String)
    (directory : Directory) (listing : List (String × Record)) (call : AppendCall) : Prop where
  marked : ∃ key, call.idempotencyKey = some key ∧ directory.markers.containsKey (markerName key)
  planned : ∃ outcome, planEvent schema layout hashField (files layout listing) call = .ok outcome ∧
    ¬ directory.records.containsKey (eventFileName outcome.eventId)

variable {schema : String} {layout : LedgerLayout} {hashField : String} {directory : Directory}
  {listing : List (String × Record)} {call : AppendCall}

omit [FloatRead] in
/-- The event that is planned has a name of its sequence and the identifier that was drawn. -/
lemma eventId_of_planned {outcome : AppendOutcome}
    (h : planEvent schema layout hashField (files layout listing) call = .ok outcome) :
    ∃ sequence, outcome.eventId = eventIdAt layout sequence call.uuid := by
  obtain ⟨last, -, h⟩ := bind_eq_ok h
  obtain ⟨-, -, h⟩ := bind_eq_ok h
  obtain ⟨sequence, -, h⟩ := bind_eq_ok h
  rw [sealEvent] at h
  split at h
  · cases h
    exact ⟨sequence, rfl⟩
  · cases h

section

omit [FloatText] [FloatRead] [Digest]

lemma mem_files {records : List (String × Record)} {file : LedgerFile} :
    file ∈ files layout records ↔
      ∃ e ∈ records, isEventFile layout e.1 ∧ file = ⟨e.1, .ok e.2⟩ := by
  rw [files, List.mem_map]
  constructor
  · rintro ⟨e, he, rfl⟩
    obtain ⟨hmem, hevent⟩ := List.mem_filter.mp ((List.mem_insertionSort _).mp he)
    exact ⟨e, hmem, hevent, rfl⟩
  · rintro ⟨e, hmem, hevent, rfl⟩
    exact ⟨e, (List.mem_insertionSort _).mpr (List.mem_filter.mpr ⟨hmem, hevent⟩), rfl⟩

/-- An event that is written is a file more. -/
lemma files_insert_ne {sequence : ℕ} {uuid : Uuid} (record : Record)
    (hnew : ¬ directory.records.containsKey (eventFileName (eventIdAt layout sequence uuid))) :
    files layout (directory.records.insert (eventFileName (eventIdAt layout sequence uuid)) record) ≠
      files layout directory.records := by
  intro hsame
  have hget := Option.not_isSome_iff_eq_none.mp hnew
  have hthere : (⟨eventFileName (eventIdAt layout sequence uuid), .ok record⟩ : LedgerFile) ∈
      files layout directory.records := by
    rw [← hsame, OrderedMap.insert_of_get_none record hget]
    exact mem_files.mpr ⟨_, List.mem_append_right _ List.mem_cons_self,
      isEventFile_eventFileName layout sequence uuid, rfl⟩
  obtain ⟨e, he, -, hfile⟩ := mem_files.mp hthere
  have hname := congrArg LedgerFile.path hfile
  exact OrderedMap.get_eq_none_iff.mp hget (List.mem_map.mpr ⟨e, he, hname.symm⟩)

end

/-- **An append that is refused leaves the event files as they are**, exactly when it meets no
marker under the name of its key. -/
theorem append_atomic_iff :
    Atomic schema layout hashField directory listing call ↔
      ¬ MarkerMet schema layout hashField directory listing call := by
  unfold Atomic appendEvent
  cases hplan : planEvent schema layout hashField (files layout listing) call with
  | error failure =>
      refine iff_of_true (fun _ _ => rfl) fun hmet => ?_
      obtain ⟨outcome, hplanned, -⟩ := hmet.planned
      cases hplan.symm.trans hplanned
  | ok outcome =>
      dsimp only
      unfold commitEvent writeNewJson
      by_cases hexists : directory.records.containsKey (eventFileName outcome.eventId)
      · -- The name of the event is taken: nothing is written.
        rw [if_pos hexists]
        refine iff_of_true (fun _ _ => rfl) fun hmet => ?_
        obtain ⟨other, hplanned, hnew⟩ := hmet.planned
        cases hplan.symm.trans hplanned
        exact hnew hexists
      rw [if_neg hexists]
      cases hkey : call.idempotencyKey with
      | none =>
          refine iff_of_true (fun _ hrefused => nomatch hrefused) fun hmet => ?_
          obtain ⟨key, hsome, -⟩ := hmet.marked
          cases hkey.symm.trans hsome
      | some key =>
          dsimp only
          unfold writeNew
          by_cases hmarked : directory.markers.containsKey (markerName key)
          · -- The event is there when its marker is refused.
            rw [if_pos hmarked]
            obtain ⟨sequence, hid⟩ := eventId_of_planned hplan
            refine iff_of_false (fun hatomic => ?_) fun hnone =>
              hnone ⟨⟨key, hkey, hmarked⟩, outcome, hplan, hexists⟩
            rw [hid] at hatomic hexists
            exact files_insert_ne _ hexists (hatomic _ rfl)
          · rw [if_neg hmarked]
            refine iff_of_true (fun _ hrefused => nomatch hrefused) fun hmet => ?_
            obtain ⟨other, hsome, hthere⟩ := hmet.marked
            cases hkey.symm.trans hsome
            exact hmarked hthere

/-! ### Runs -/

/-- The directory after a call, whatever it answers. -/
def Directory.after (schema : String) (layout : LedgerLayout) (hashField : String)
    (directory : Directory) (call : AppendCall) : Directory :=
  (appendEvent schema layout hashField directory directory.records call).1

variable {schema : String} {layout : LedgerLayout} {hashField : String}

/-- The markers behind a call are those before it, and at most that of its key. -/
lemma mem_markers_after {directory : Directory} {call : AppendCall} {name : String}
    (h : name ∈ OrderedMap.keys (directory.after schema layout hashField call).markers) :
    name ∈ OrderedMap.keys directory.markers ∨
      ∃ key, call.idempotencyKey = some key ∧ name = markerName key := by
  unfold Directory.after appendEvent at h
  split at h
  · exact .inl h
  · unfold commitEvent writeNewJson at h
    split at h
    · exact .inl h
    · next written hwritten =>
        have hmarkers : written.markers = directory.markers := by
          split_ifs at hwritten
          cases hwritten
          rfl
        split at h
        · exact .inl (hmarkers ▸ h)
        · next key hkey =>
            unfold writeNew at h
            split at h
            · next hrefused => exact .inl (hmarkers ▸ h)
            · next marked hmarked =>
                split_ifs at hmarked
                cases hmarked
                rcases OrderedMap.mem_keys_insert.mp h with rfl | hold
                · exact .inr ⟨key, hkey, rfl⟩
                · exact .inl (hmarkers ▸ hold)

/-- **An append is refused behind its event only after one whose key has its safe name**, in every
run from an empty directory. -/
theorem atomic_or_named (before : List AppendCall) (call : AppendCall) :
    let directory := Calls.run (Directory.after schema layout hashField) ⟨[], []⟩ before
    Atomic schema layout hashField directory directory.records call ∨
      ∃ earlier ∈ before, call.idempotencyKey.map markerName =
        earlier.idempotencyKey.map markerName := by
  intro directory
  have hnames : ∀ name ∈ OrderedMap.keys directory.markers,
      ∃ earlier ∈ before, earlier.idempotencyKey.map markerName = some name := by
    induction before using List.reverseRecOn with
    | nil =>
        rintro name ⟨⟩
    | append_singleton earlier last ih =>
        intro name hname
        rw [show directory = _ from Calls.run_append _, Calls.run_cons, Calls.run_nil] at hname
        rcases mem_markers_after hname with hold | ⟨key, hkey, rfl⟩
        · obtain ⟨other, hother, hsome⟩ := ih name hold
          exact ⟨other, List.mem_append_left _ hother, hsome⟩
        · exact ⟨last, List.mem_append_right _ (List.mem_singleton_self _), by rw [hkey]; rfl⟩
  by_cases hmet : MarkerMet schema layout hashField directory directory.records call
  · obtain ⟨key, hkey, hthere⟩ := hmet.marked
    obtain ⟨earlier, hmem, hsame⟩ := hnames _ (OrderedMap.containsKey_iff.mp hthere)
    exact .inr ⟨earlier, hmem, by rw [hsame, hkey]; rfl⟩
  · exact .inl (append_atomic_iff.mpr hmet)

end Atomicity

/-- **An event is there whose append was refused**: the keys `a.b` and `ab` have one safe name, and
the second append is refused behind its event. -/
theorem not_atomic_of_dot :
    letI := FloatText.fields
    letI : Digest := ⟨id⟩
    letI : FloatRead := ⟨id⟩
    let layout : LedgerLayout := ⟨"ev", by decide⟩
    let directory := Directory.after "schema" layout "event_hash" ⟨[], []⟩
      ⟨none, some "a.b", plainEvent, Uuid.least⟩
    ¬ Atomic "schema" layout "event_hash" directory directory.records
      ⟨none, some "ab", plainEvent, Uuid.least⟩ := by
  let _ : FloatText := FloatText.fields
  let _ : Digest := ⟨id⟩
  let _ : FloatRead := ⟨id⟩
  intro layout directory hatomic
  have hnone : (appendEvent "schema" layout "event_hash" directory directory.records
      ⟨none, some "ab", plainEvent, Uuid.least⟩).2.toOption.isNone := by
    decide +kernel
  obtain ⟨failure, hrefused⟩ : ∃ failure, (appendEvent "schema" layout "event_hash" directory
      directory.records ⟨none, some "ab", plainEvent, Uuid.least⟩).2 = .error failure := by
    cases hanswer : (appendEvent "schema" layout "event_hash" directory directory.records
        ⟨none, some "ab", plainEvent, Uuid.least⟩).2 with
    | error failure => exact ⟨failure, rfl⟩
    | ok outcome =>
        rw [hanswer] at hnone
        cases hnone
  have hcounts : (files layout (appendEvent "schema" layout "event_hash" directory directory.records
        ⟨none, some "ab", plainEvent, Uuid.least⟩).1.records).length = 2 ∧
      (files layout directory.records).length = 1 := by
    decide +kernel
  have hsame := congrArg List.length (hatomic failure hrefused)
  rw [hcounts.1, hcounts.2] at hsame
  cases hsame

end EventLedger

end McpSurfaces
