import McpSurfaces.Foundation.Runs
import McpSurfaces.LedgerDomain.Fold

/-!
The refresh of the projection: `rebuild_projection_locked` with its three paths, the
projection that is current, the catch-up and the full rebuild.

* `Store` is the ledger directory with the projection, and `storeMachine` its runs:
  events are appended, the ledger directory is replaced, the projection is refreshed or
  lost. A crash between the write of an event and the refresh is an append without the
  refresh.
* `Folded`: the projection is the fold of a chain, `metaRow_of_foldLedger` says that it names
  the head and the length of that chain.
* **`rebuild_exact`**: whenever a refresh succeeds, the ledger verifies and the projection
  is the fold of all of it, on every path and in every reachable state. The stored head
  pins the whole prefix it was folded from.
-/

namespace McpSurfaces

namespace LedgerDomain

open EventLedger Lists

/-! ### The refresh -/

/-- The ledger directory and the projection, when there is one. -/
structure Store where
  ledger : List LedgerFile
  projection : Option Projection

/-- The stored row of `projection_meta`. -/
def Store.metaRow (s : Store) : Option MetaRow := s.projection.bind Projection.metaRow

def projectionIsCurrent (domain : Domain) (s : Store) (ledgerHead : Option String)
    (ledgerSequence : ℕ) : Bool :=
  domain.hasMeta &&
    match s.metaRow with
    | none => false
    | some stored =>
        decide (stored.ledgerHead = ledgerHead) &&
          decide (stored.ledgerSequence = asI64 ledgerSequence)

section Refresh

variable [FloatText] [Digest]

/-- One event of the catch-up, which insists on an event id. -/
def catchUpEvent (domain : Domain) (p : Projection) (file : LedgerFile) :
    Except Failure Projection := do
  let event ← file.content
  match event.str "event_id" with
  | none =>
      .error (schemaError domain.errorSchemaId "projection_event_invalid"
        "ledger event lacks event_id" (.object [("path", .string file.path)]))
  | some eventId => foldProjectionEvent domain p event.value eventId

/-- The hash of the event at the stored sequence. -/
def prefixHead (domain : Domain) (files : List LedgerFile) (storedSequence : ℕ) :
    Except Failure (Option String) :=
  if storedSequence = 0 then .ok none
  else
    match files[storedSequence - 1]? with
    | none => .error (.panic "index out of bounds")
    | some file => do
        let event ← file.content
        return event.str domain.eventHashField

/-- `catch_up_projection_locked`: nothing where the stored projection is no prefix of the
ledger. -/
def catchUpProjection (domain : Domain) (s : Store) (files : List LedgerFile) :
    Except Failure (Option Projection) :=
  if domain.hasMeta then
    match s.projection with
    | none => .ok none
    | some p =>
        match p.metaRow with
        | none => .ok none
        | some stored =>
            if stored.ledgerSequence < 0 ∨ files.length < stored.ledgerSequence.toNat then .ok none
            else do
              let head ← prefixHead domain files stored.ledgerSequence.toNat
              if head ≠ stored.ledgerHead then return none
              else
                let p ← (files.drop stored.ledgerSequence.toNat).foldlM (catchUpEvent domain) p
                return some p
  else .ok none

/-- One event of the full rebuild. -/
def rebuildEvent (domain : Domain) (p : Projection) (file : LedgerFile) :
    Except Failure Projection := do
  let event ← file.content
  foldProjectionEvent domain p event.value (eventIdOf event.value)

/-- `rebuild_projection`: the fold of the whole ledger into a new database. -/
def rebuildProjection (domain : Domain) (files : List LedgerFile) : Except Failure Projection := do
  let _ ← verify domain.errorSchemaId files domain.eventHashField
  files.foldlM (rebuildEvent domain) .created

def rebuildProjectionLocked (domain : Domain) (s : Store) : Except Failure Store := do
  let _ ← verify domain.errorSchemaId s.ledger domain.eventHashField
  let ledgerHead ← head s.ledger domain.eventHashField
  if projectionIsCurrent domain s ledgerHead s.ledger.length then return s
  else
    match ← catchUpProjection domain s s.ledger with
    | some p => return { s with projection := some p }
    | none =>
        let p ← rebuildProjection domain s.ledger
        return { s with projection := some p }

/-! ### Runs -/

/-- What happens to a store. A refresh that fails leaves the store as it is, but the old
projection is removed before the new one is in place. -/
inductive StoreStep (domain : Domain) : Store → Store → Prop
  | append {s : Store} (event : LedgerFile) :
      StoreStep domain s { s with ledger := s.ledger ++ [event] }
  | replace {s : Store} (ledger : List LedgerFile) :
      StoreStep domain s { s with ledger := ledger }
  | refresh {s t : Store} (h : rebuildProjectionLocked domain s = .ok t) : StoreStep domain s t
  | lose {s : Store} : StoreStep domain s { s with projection := none }

/-- The runs of a store, from any ledger without a projection. -/
def storeMachine (domain : Domain) : Machine Store where
  init s := s.projection = none
  step := StoreStep domain

/-! ### The invariant -/

/-- The records are numbered from one. -/
def Numbered (records : List Record) : Prop :=
  ∀ i r, records[i]? = some r → r.u64 "sequence" = some (i + 1)

/-- The projection is the fold of a numbered chain. -/
def Folded (domain : Domain) (p : Projection) : Prop :=
  ∃ events, Chained domain.eventHashField events ∧ Numbered events ∧
    foldLedger domain events = .ok p

section

omit [FloatText] [Digest]

/-- A numbered list has fewer records than there are sequences. -/
lemma Numbered.length_lt {records : List Record} (h : Numbered records) :
    records.length < 2 ^ 64 := by
  cases hlen : records.length with
  | zero => norm_num
  | succ n =>
      have hn : n < records.length := by omega
      have hlast := h n records[n] (List.getElem?_eq_getElem hn)
      obtain ⟨v, -, hv⟩ := Option.bind_eq_some_iff.mp hlast
      exact Value.asU64_lt hv

lemma asI64_injective {m n : ℕ} (hm : m < 2 ^ 64) (hn : n < 2 ^ 64) (h : asI64 m = asI64 n) :
    m = n := by
  rw [asI64, asI64] at h
  split_ifs at h <;> omega

/-- The sequences that are natural numbers as an `i64` are themselves. -/
lemma toNat_asI64 {n : ℕ} (hn : n < 2 ^ 64) (h : ¬ asI64 n < 0) : (asI64 n).toNat = n := by
  rw [asI64] at h ⊢
  split_ifs at h ⊢ <;> omega

end

/-- **A projection names the chain it was folded from** by its head and its length. -/
lemma metaRow_of_foldLedger {domain : Domain} (hmeta : domain.hasMeta) {events : List Record}
    (hnumbered : Numbered events) {p : Projection} (h : foldLedger domain events = .ok p) :
    ∃ updated, p.metaRow =
      some ⟨HashChain.head (fun r : Record => r.str domain.eventHashField) none events,
        asI64 events.length, updated⟩ := by
  induction events using List.reverseRecOn with
  | nil =>
      cases h
      exact ⟨none, rfl⟩
  | append_singleton front last _ =>
      rw [foldLedger, foldEvents_append] at h
      obtain ⟨q, -, h⟩ := bind_eq_ok h
      rw [foldEvents, List.foldlM_cons] at h
      obtain ⟨q', hlast, h⟩ := bind_eq_ok h
      cases h
      have hsequence : sequenceOf last.value = front.length + 1 := by
        have hnumber := hnumbered front.length last (by simp)
        rw [sequenceOf]
        exact congrArg (Option.getD · 0) hnumber
      have hrow := metaRow_of_fold hmeta hlast
      rw [hsequence] at hrow
      refine ⟨some (eventIdOf last.value), ?_⟩
      rw [hrow, HashChain.head_append, List.length_append]
      rfl

omit [FloatText] [Digest] in
/-- A fold over files that reads them is the fold over their records. -/
private lemma foldlM_contents_ok {β : Type} {readFile : β → LedgerFile → Except Failure β}
    {fold : β → Record → Except Failure β}
    (hread : ∀ b b' file r, file.content = .ok r → readFile b file = .ok b' → fold b r = .ok b')
    {files : List LedgerFile} {records : List Record}
    (hcontents : files.map LedgerFile.content = records.map .ok) {b b' : β}
    (h : files.foldlM readFile b = .ok b') : records.foldlM fold b = .ok b' := by
  induction files generalizing records b with
  | nil =>
      rw [List.map_nil, eq_comm, List.map_eq_nil_iff] at hcontents
      rw [hcontents]
      exact h
  | cons file rest ih =>
      cases records with
      | nil => simp at hcontents
      | cons r rs =>
          rw [List.map_cons, List.map_cons, List.cons.injEq] at hcontents
          rw [List.foldlM_cons] at h
          obtain ⟨c, hfile, hrest⟩ := bind_eq_ok h
          rw [List.foldlM_cons, hread b c file r hcontents.1 hfile]
          exact ih hcontents.2 hrest

/-! ### The three paths -/

section Paths

variable {domain : Domain} {s : Store} {records : List Record}
  (hverify : verify domain.errorSchemaId s.ledger domain.eventHashField = .ok records)
include hverify

/-- Reading the files from a position on is reading the records from there on. -/
private lemma drop_contents (n : ℕ) :
    (s.ledger.drop n).map LedgerFile.content = (records.drop n).map .ok := by
  rw [List.map_drop, List.map_drop, verify_contents hverify]

/-- The full rebuild folds the records that verified. -/
lemma foldLedger_of_rebuild {p : Projection} (h : rebuildProjection domain s.ledger = .ok p) :
    foldLedger domain records = .ok p := by
  rw [rebuildProjection, hverify] at h
  refine foldlM_contents_ok (fun p p' file r hfile h => ?_) (verify_contents hverify) h
  rw [rebuildEvent, hfile] at h
  exact h

/-- The catch-up folds the records from the stored sequence on. -/
lemma foldEvents_of_catchUp {n : ℕ} {p p' : Projection}
    (h : (s.ledger.drop n).foldlM (catchUpEvent domain) p = .ok p') :
    foldEvents domain p (records.drop n) = .ok p' := by
  refine foldlM_contents_ok (fun p p' file r hfile h => ?_) (drop_contents hverify n) h
  rw [catchUpEvent, hfile] at h
  cases hid : r.str "event_id" with
  | none => simp only [bind, Except.bind, hid] at h; cases h
  | some eventId =>
      simp only [bind, Except.bind, hid] at h
      have heventId : eventIdOf r.value = eventId := by
        rw [eventIdOf, textOf]
        exact congrArg (Option.getD · "") hid
      rw [heventId]
      exact h

/-- The hash at the stored sequence is the head of the records up to it. -/
lemma prefixHead_eq {n : ℕ} {stored : Option String}
    (h : prefixHead domain s.ledger n = .ok stored) :
    stored = HashChain.head (fun r : Record => r.str domain.eventHashField) none
      (records.take n) := by
  rw [prefixHead] at h
  by_cases hn : n = 0
  · rw [if_pos hn] at h
    cases h
    rw [hn]
    rfl
  · rw [if_neg hn] at h
    have hfile : s.ledger[n - 1]?.map LedgerFile.content = records[n - 1]?.map .ok := by
      rw [← List.getElem?_map, ← List.getElem?_map, verify_contents hverify]
    cases hget : s.ledger[n - 1]? with
    | none => rw [hget] at h; cases h
    | some file =>
        rw [hget] at h hfile
        obtain ⟨r, hr, hcontent⟩ := Option.map_eq_some_iff.mp hfile.symm
        simp only [← hcontent] at h
        cases h
        have hlast : (records.take n).getLast? = some r := by
          rw [List.getLast?_take, if_neg hn, hr]
          rfl
        rw [HashChain.head_eq_getLast?, hlast]
        rfl

variable (hdigest : Function.Injective digestValue)
include hdigest

/-- **A stored head pins what was folded**: a projection whose head is that of the ledger
at its own length holds the fold of the ledger up to there. -/
lemma foldLedger_take_of_head {events : List Record} {p : Projection}
    (hchained : Chained domain.eventHashField events) (hfold : foldLedger domain events = .ok p)
    (hlen : events.length ≤ records.length)
    (hhead : HashChain.head (fun r : Record => r.str domain.eventHashField) none events =
      HashChain.head (fun r : Record => r.str domain.eventHashField) none
        (records.take events.length)) :
    foldLedger domain (records.take events.length) = .ok p := by
  have hsame := same_prefix_of_hash hdigest hchained (verify_chained hverify) hlen hhead
  rw [← hfold, foldLedger, foldLedger, foldEvents_congr domain .created hsame]

/-- The path of the current projection. -/
lemma fold_of_current {p : Projection} (hp : s.projection = some p) (hfolded : Folded domain p)
    {ledgerHead : Option String} (hhead : head s.ledger domain.eventHashField = .ok ledgerHead)
    (h : projectionIsCurrent domain s ledgerHead s.ledger.length) :
    foldLedger domain records = .ok p := by
  obtain ⟨events, hchained, hnumbered, hfold⟩ := hfolded
  rw [projectionIsCurrent, Bool.and_eq_true] at h
  obtain ⟨hmeta, h⟩ := h
  obtain ⟨updated, hrow⟩ := metaRow_of_foldLedger hmeta hnumbered hfold
  rw [Store.metaRow, hp, Option.bind_some, hrow] at h
  simp only [Bool.and_eq_true, decide_eq_true_eq] at h
  obtain ⟨hstored, hsequence⟩ := h
  have hrecords : Numbered records := fun i r hr => verify_sequence hverify hr
  have hlen : events.length = records.length := by
    rw [verify_length hverify] at hsequence
    exact asI64_injective hnumbered.length_lt hrecords.length_lt hsequence
  rw [head_of_verify hverify] at hhead
  cases hhead
  have htake := foldLedger_take_of_head hverify hdigest hchained hfold hlen.le (by
    rw [hlen, List.take_length, hstored])
  rwa [hlen, List.take_length] at htake

/-- The path of the catch-up. -/
lemma fold_of_catchUp (hfolded : ∀ p, s.projection = some p → Folded domain p) {p' : Projection}
    (h : catchUpProjection domain s s.ledger = .ok (some p')) :
    foldLedger domain records = .ok p' := by
  rw [catchUpProjection] at h
  by_cases hmeta : domain.hasMeta
  · rw [if_pos hmeta] at h
    cases hp : s.projection with
    | none => rw [hp] at h; cases h
    | some p =>
        obtain ⟨events, hchained, hnumbered, hfold⟩ := hfolded p hp
        obtain ⟨updated, hrow⟩ := metaRow_of_foldLedger hmeta hnumbered hfold
        simp only [hp, hrow] at h
        by_cases hrange : asI64 events.length < 0 ∨ s.ledger.length < (asI64 events.length).toNat
        · rw [if_pos hrange] at h; cases h
        · rw [if_neg hrange] at h
          push Not at hrange
          rw [toNat_asI64 hnumbered.length_lt (by omega), verify_length hverify] at hrange
          rw [toNat_asI64 hnumbered.length_lt (by omega)] at h
          obtain ⟨stored, hstored, h⟩ := bind_eq_ok h
          have hstoredHead := prefixHead_eq hverify hstored
          split_ifs at h with hhead
          · cases h
          · obtain ⟨q, hrest, h⟩ := bind_eq_ok h
            cases h
            have hfront := foldLedger_take_of_head hverify hdigest hchained hfold hrange.2
              ((not_not.mp hhead).symm.trans hstoredHead)
            rw [← List.take_append_drop events.length records, foldLedger, foldEvents_append]
            rw [foldLedger] at hfront
            rw [hfront]
            exact foldEvents_of_catchUp hverify hrest
  · rw [if_neg hmeta] at h
    cases h

end Paths

/-- **One refresh**: from the fold of any chain a successful refresh gives the fold of the
ledger. -/
lemma rebuild_folds {domain : Domain} (hdigest : Function.Injective digestValue) {s t : Store}
    (hfolded : ∀ p, s.projection = some p → Folded domain p)
    (h : rebuildProjectionLocked domain s = .ok t) :
    ∃ records p, verify domain.errorSchemaId s.ledger domain.eventHashField = .ok records ∧
      foldLedger domain records = .ok p ∧ t = { s with projection := some p } := by
  rw [rebuildProjectionLocked] at h
  obtain ⟨records, hverify, h⟩ := bind_eq_ok h
  obtain ⟨ledgerHead, hhead, h⟩ := bind_eq_ok h
  by_cases hcurrent : projectionIsCurrent domain s ledgerHead s.ledger.length
  · rw [if_pos hcurrent] at h
    cases h
    obtain ⟨p, hp⟩ : ∃ p, s.projection = some p := by
      cases hp : s.projection with
      | some p => exact ⟨p, rfl⟩
      | none => simp [projectionIsCurrent, Store.metaRow, hp] at hcurrent
    refine ⟨records, p, hverify, fold_of_current hverify hdigest hp (hfolded p hp) hhead
      hcurrent, ?_⟩
    rw [← hp]
  · rw [if_neg hcurrent] at h
    obtain ⟨caughtUp, hcatchUp, h⟩ := bind_eq_ok h
    cases caughtUp with
    | some p =>
        cases h
        exact ⟨records, p, hverify, fold_of_catchUp hverify hdigest hfolded hcatchUp, rfl⟩
    | none =>
        obtain ⟨p, hrebuild, h⟩ := bind_eq_ok h
        cases h
        exact ⟨records, p, hverify, foldLedger_of_rebuild hverify hrebuild, rfl⟩

/-! ### A refresh that succeeds -/

omit [FloatText] [Digest] in
/-- A fold over files is the fold over their records, where it reads them. -/
private lemma foldlM_contents {β : Type} {readFile : β → LedgerFile → Except Failure β}
    {fold : β → Record → Except Failure β} {files : List LedgerFile} {records : List Record}
    (hcontents : files.map LedgerFile.content = records.map .ok)
    (hread : ∀ file, ∀ r ∈ records, file.content = .ok r → ∀ b, readFile b file = fold b r)
    (b : β) : files.foldlM readFile b = records.foldlM fold b := by
  induction files generalizing records b with
  | nil =>
      rw [List.map_nil, eq_comm, List.map_eq_nil_iff] at hcontents
      rw [hcontents]
      rfl
  | cons file rest ih =>
      cases records with
      | nil => simp at hcontents
      | cons r rs =>
          rw [List.map_cons, List.map_cons, List.cons.injEq] at hcontents
          rw [List.foldlM_cons, List.foldlM_cons, hread file r List.mem_cons_self hcontents.1]
          refine bind_congr fun c => ih hcontents.2 (fun f s hs => ?_) c
          exact hread f s (List.mem_cons_of_mem r hs)

section Succeeds

variable {domain : Domain} {s : Store} {records : List Record}
  (hverify : verify domain.errorSchemaId s.ledger domain.eventHashField = .ok records)
include hverify

/-- The event at a position within the ledger is there. -/
private lemma prefixHead_ok {n : ℕ} (hn : n ≤ records.length) :
    ∃ stored, prefixHead domain s.ledger n = .ok stored := by
  rw [prefixHead]
  by_cases hzero : n = 0
  · rw [if_pos hzero]
    exact ⟨none, rfl⟩
  · rw [if_neg hzero]
    have hlt : n - 1 < s.ledger.length := by
      rw [verify_length hverify]
      omega
    obtain ⟨r, -, hcontent⟩ := List.mem_map.mp (verify_contents hverify ▸
      List.mem_map_of_mem (f := LedgerFile.content) (List.getElem_mem hlt))
    rw [List.getElem?_eq_getElem hlt]
    simp only [← hcontent]
    exact ⟨_, rfl⟩

variable (hids : ∀ r ∈ records, (r.str "event_id").isSome)
  (hfronts : ∀ p, s.projection = some p →
    ∃ front, front <+: records ∧ foldLedger domain front = .ok p)
  (hall : ∃ p, foldLedger domain records = .ok p)
include hids hfronts hall

/-- The catch-up of a projection of a part of the ledger succeeds. -/
lemma catchUp_succeeds : ∃ caughtUp, catchUpProjection domain s s.ledger = .ok caughtUp := by
  rw [catchUpProjection]
  by_cases hmeta : domain.hasMeta
  · rw [if_pos hmeta]
    cases hp : s.projection with
    | none => exact ⟨none, rfl⟩
    | some p =>
        obtain ⟨front, ⟨rest, hrest⟩, hfold⟩ := hfronts p hp
        have hnumbered : Numbered front := fun i r hr => by
          have hi := (List.getElem?_eq_some_iff.mp hr).1
          refine verify_sequence hverify ?_
          rw [← hrest, List.getElem?_append_left hi, hr]
        obtain ⟨updated, hrow⟩ := metaRow_of_foldLedger hmeta hnumbered hfold
        simp only [hrow]
        by_cases hrange : asI64 front.length < 0 ∨
            s.ledger.length < (asI64 front.length).toNat
        · rw [if_pos hrange]
          exact ⟨none, rfl⟩
        · rw [if_neg hrange, toNat_asI64 hnumbered.length_lt fun hneg => hrange (Or.inl hneg)]
          have hlength : front.length ≤ records.length := by
            rw [← hrest, List.length_append]
            omega
          obtain ⟨stored, hstored⟩ := prefixHead_ok hverify hlength
          have hdrop : (s.ledger.drop front.length).foldlM (catchUpEvent domain) p =
              foldEvents domain p (records.drop front.length) := by
            refine foldlM_contents (drop_contents hverify _) (fun file r hr hfile b => ?_) p
            obtain ⟨eventId, hid⟩ := Option.isSome_iff_exists.mp (hids r (List.mem_of_mem_drop hr))
            have heventId : eventIdOf r.value = eventId := by
              rw [eventIdOf, textOf]
              exact congrArg (Option.getD · "") hid
            rw [catchUpEvent, hfile]
            simp only [bind, Except.bind, hid, heventId]
          obtain ⟨all, hall⟩ := hall
          rw [← hrest, foldLedger, foldEvents_append] at hall
          rw [foldLedger] at hfold
          rw [hfold] at hall
          have hrest' : foldEvents domain p rest = .ok all := hall
          simp only [bind, Except.bind, hstored, hdrop, ← hrest, List.drop_left, hrest']
          split_ifs
          · exact ⟨none, rfl⟩
          · exact ⟨some all, rfl⟩
  · rw [if_neg hmeta]
    exact ⟨none, rfl⟩

/-- **A refresh succeeds** on a ledger that verifies and folds, from the projection of a part
of it. -/
lemma rebuild_succeeds : ∃ t, rebuildProjectionLocked domain s = .ok t := by
  obtain ⟨caughtUp, hcatchUp⟩ := catchUp_succeeds hverify hids hfronts hall
  obtain ⟨all, hall⟩ := hall
  have hrebuild : rebuildProjection domain s.ledger = .ok all := by
    have hfold : s.ledger.foldlM (rebuildEvent domain) .created = foldLedger domain records := by
      refine foldlM_contents (verify_contents hverify) (fun file r _ hfile b => ?_) _
      rw [rebuildEvent, hfile]
      rfl
    rw [rebuildProjection, hverify]
    exact hfold.trans hall
  rw [rebuildProjectionLocked]
  simp only [bind, Except.bind, hverify, head_of_verify hverify, hcatchUp, hrebuild]
  split_ifs
  · exact ⟨s, rfl⟩
  · cases caughtUp with
    | some p => exact ⟨_, rfl⟩
    | none => exact ⟨_, rfl⟩

end Succeeds

/-- In every run the projection is the fold of some chain. -/
lemma folded_invariant {domain : Domain} (hdigest : Function.Injective digestValue) :
    (storeMachine domain).Invariant fun s => ∀ p, s.projection = some p → Folded domain p where
  init s h p hp := by
    rw [h] at hp
    cases hp
  step s t hs h := by
    cases h with
    | append event => exact hs
    | replace ledger => exact hs
    | lose => exact fun p hp => by cases hp
    | refresh h =>
        obtain ⟨records, p, hverify, hfold, rfl⟩ := rebuild_folds hdigest hs h
        intro q hq
        cases hq
        exact ⟨records, verify_chained hverify, fun i r hr => verify_sequence hverify hr, hfold⟩

/-- **Catch-up agrees with full rebuild**: whenever a refresh succeeds, in whatever state a
run has reached, the ledger verifies and the projection is the fold of all of it. -/
theorem rebuild_exact {domain : Domain} (hdigest : Function.Injective digestValue) {s t : Store}
    (hs : (storeMachine domain).Reachable s) (h : rebuildProjectionLocked domain s = .ok t) :
    ∃ records p, verify domain.errorSchemaId s.ledger domain.eventHashField = .ok records ∧
      foldLedger domain records = .ok p ∧ t = { s with projection := some p } :=
  rebuild_folds hdigest (hs.invariant (folded_invariant hdigest)) h

/-- An event with the hash of its content. -/
def sealedEvent (sequence : ℕ) (previous : Option String) (operations : List Value) : Record :=
  let fields : Map := [("sequence", .ofNat sequence), ("previous_hash", optionText previous),
    ("event_id", .string "ev"), ("operations", .array operations)]
  ⟨.object (fields ++ [("event_hash", .string (digestValue (.object fields)))]), fun all h => by
    cases h
    simp [fields, OrderedMap.keys]⟩

omit [FloatText] [Digest] in
/-- A refresh after an event that was appended to a projected ledger folds both events. -/
theorem rebuild_exact_caughtUp :
    letI := FloatText.fields
    letI : Digest := ⟨id⟩
    let first := sealedEvent 1 none [.object [("op", .string "entity.declare"),
      ("entity_id", .string "e"), ("kind", .string "claim"), ("title", .string "t")]]
    let second := sealedEvent 2 (first.str "event_hash") []
    ∃ s t, s.ledger = [⟨"ev-1.json", .ok first⟩, ⟨"ev-2.json", .ok second⟩] ∧
      rebuildProjectionLocked epistemic s = .ok t ∧
      ∃ records p, verify epistemic.errorSchemaId s.ledger epistemic.eventHashField =
          .ok records ∧ foldLedger epistemic records = .ok p ∧
        t = { s with projection := some p } := by
  let _ : FloatText := FloatText.fields
  let _ : Digest := ⟨id⟩
  intro first second
  have hdigest : Function.Injective digestValue := fun v w h =>
    Value.text_injective FloatText.fields_lawful h
  let s₀ : Store := ⟨[⟨"ev-1.json", .ok first⟩], none⟩
  let s₁ : Store := (rebuildProjectionLocked epistemic s₀).toOption.getD s₀
  let s₂ : Store := { s₁ with
    ledger := [⟨"ev-1.json", .ok first⟩, ⟨"ev-2.json", .ok second⟩] }
  have hfirst : rebuildProjectionLocked epistemic s₀ = .ok s₁ :=
    eq_ok_of_isSome (by decide +kernel) s₀
  have hsecond : rebuildProjectionLocked epistemic s₂ =
      .ok ((rebuildProjectionLocked epistemic s₂).toOption.getD s₂) :=
    eq_ok_of_isSome (by decide +kernel) s₂
  have hs₀ : (storeMachine epistemic).Reachable s₀ := .init rfl
  have hs₁ : (storeMachine epistemic).Reachable s₁ := hs₀.step (StoreStep.refresh hfirst)
  have hs₂ : (storeMachine epistemic).Reachable s₂ := hs₁.step (StoreStep.replace _)
  exact ⟨s₂, _, rfl, hsecond, rebuild_exact hdigest hs₂ hsecond⟩

end Refresh

end LedgerDomain

end McpSurfaces
