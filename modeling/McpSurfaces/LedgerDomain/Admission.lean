import McpSurfaces.LedgerDomain.Site

/-!
What the ledger and the answers of a site are over all runs, for the descriptor of the
epistemic graph.

* `Minted`: an event is the next one behind those before it, made from a proposal on disk
  that expected their head.
* `Settled`: the answer of an admission that succeeded is that of an event its marker names.
* **`admission_exactly_once`**: no two events admit one proposal, each names the head its
  proposal expected, and an admission that is repeated gives the answer it has given before
  and leaves all files as they are.
-/

namespace McpSurfaces

namespace LedgerDomain

open EventLedger Lists

/-! ### Names without white space -/

/-- The id of a proposal is the name of its file. -/
lemma safeName_proposalId (uuid : Uuid) :
    safeName (epistemic.proposalIdLead ++ uuid.text) = epistemic.proposalIdLead ++ uuid.text := by
  refine safeName_eq_self (fun c hc => ?_) ?_
  · rw [String.toList_append, List.mem_append] at hc
    rcases hc with hc | hc
    · have hlead : epistemic.proposalIdLead.toList.all isSafeChar := by decide
      exact List.all_eq_true.mp hlead c hc
    · exact uuid.isSafeChar_of_mem hc
  · rw [String.length_append, uuid.length_eq]
    decide

lemma trim_proposalId (uuid : Uuid) :
    Str.trim (epistemic.proposalIdLead ++ uuid.text) = epistemic.proposalIdLead ++ uuid.text := by
  refine Str.trim_eq_self fun c hc => ?_
  rw [String.toList_append, List.mem_append] at hc
  rcases hc with hc | hc
  · have hlead : epistemic.proposalIdLead.toList.all isSafeChar := by decide
    exact not_isWhitespace_of_isSafeChar (List.all_eq_true.mp hlead c hc)
  · exact not_isWhitespace_of_isSafeChar (uuid.isSafeChar_of_mem hc)

/-- The id of an event is read back from its marker. -/
lemma trim_newEventId (sequence : ℕ) (uuid : Uuid) :
    Str.trim (newEventId epistemic sequence uuid) = newEventId epistemic sequence uuid := by
  refine Str.trim_eq_self fun c hc => not_isWhitespace_of_isSafeChar ?_
  have hlead : epistemic.ledgerFilePrefix.toList.all isSafeChar := by decide
  have hdash : "-".toList.all isSafeChar := by decide
  rw [newEventId, String.toList_append, String.toList_append, String.toList_append,
    String.toList_append, List.mem_append, List.mem_append, List.mem_append, List.mem_append] at hc
  rcases hc with (((hc | hc) | hc) | hc) | hc
  · exact List.all_eq_true.mp hlead c hc
  · exact List.all_eq_true.mp hdash c hc
  · exact isSafeChar_of_mem_zeroPadded hc
  · exact List.all_eq_true.mp hdash c hc
  · exact uuid.isSafeChar_of_mem hc

/-! ### Events -/

/-- What an admission makes its event of. -/
structure Minting where
  id : String
  proposal : Value
  actor : String
  key : String
  fresh : Fresh
  args : Map

/-- The hash of the last event. -/
def lastHash (events : List Record) : Option String :=
  events.getLast?.bind fun r => r.str epistemic.eventHashField

section Events

variable [FloatText] [Digest]

namespace Minting

/-- The fields of the event behind the events `before`. -/
def fields (m : Minting) (before : List Record) : Map :=
  eventFields epistemic (before.length + 1)
    (newEventId epistemic (before.length + 1) m.fresh.uuid) (lastHash before) m.id m.proposal
    m.actor m.key m.fresh m.args

/-- The event behind the events `before`, as it is made. -/
def event (m : Minting) (before : List Record) : Record :=
  withHash (m.fields before) epistemic.eventHashField (nodup_keys_eventFields ..)

variable (m : Minting) (before : List Record)

lemma get_event {key : String} (hne : epistemic.eventHashField ≠ key) :
    (m.event before).get key = OrderedMap.get (m.fields before) key := by
  exact OrderedMap.get_insert_of_ne _ _ hne

@[simp] lemma get_proposalId : (m.event before).get "proposal_id" = some (.string m.id) := by
  rw [get_event m before (by decide)]
  simp [fields, eventFields, OrderedMap.get_cons]

@[simp] lemma get_previousHash :
    (m.event before).get "previous_hash" = some (optionText (lastHash before)) := by
  rw [get_event m before (by decide)]
  simp [fields, eventFields, OrderedMap.get_cons]

@[simp] lemma get_proposalDigest :
    (m.event before).get "proposal_digest" = some ((m.proposal.get "digest").getD .null) := by
  rw [get_event m before (by decide)]
  simp [fields, eventFields, OrderedMap.get_cons]

@[simp] lemma get_eventId : (m.event before).get "event_id" =
    some (.string (newEventId epistemic (before.length + 1) m.fresh.uuid)) := by
  rw [get_event m before (by decide)]
  simp [fields, eventFields, OrderedMap.get_cons]

@[simp] lemma get_sequence :
    (m.event before).get "sequence" = some (.ofNat (before.length + 1)) := by
  rw [get_event m before (by decide)]
  simp [fields, eventFields, OrderedMap.get_cons]

@[simp] lemma get_key : (m.event before).get "idempotency_key" = some (.string m.key) := by
  rw [get_event m before (by decide)]
  simp [fields, eventFields, OrderedMap.get_cons]

@[simp] lemma get_hash : (m.event before).get epistemic.eventHashField =
    some (.string (digestValue (.object (m.fields before)))) := by
  exact OrderedMap.get_insert_self _ _ _

lemma eventIdOf_event : eventIdOf (m.event before).value =
    newEventId epistemic (before.length + 1) m.fresh.uuid := by
  have hid := m.get_eventId before
  rw [Record.get] at hid
  rw [eventIdOf, textOf, hid]
  rfl

end Minting

end Events

section Ledger

variable [FloatRead]

lemma get_reread (r : Record) (key : String) :
    (rereadRecord r).get key = (r.get key).map Value.reread :=
  Value.get_reread _ _

lemma eventIdOf_reread (r : Record) : eventIdOf (rereadRecord r).value = eventIdOf r.value := by
  rw [eventIdOf, eventIdOf, textOf, textOf, rereadRecord, Value.get_asStr_reread]

lemma str_reread (r : Record) (key : String) : (rereadRecord r).str key = r.str key :=
  Value.get_asStr_reread _ _

variable [FloatText] [Digest]

/-- An event and what it was made of: the next one behind the events `before`, of a proposal
on disk that expected their head and of which there is a review. -/
structure MintedBy (disk : Disk) (before : List Record) (r : Record) (m : Minting) : Prop where
  event_eq : r = rereadRecord (m.event before)
  sequence_lt : before.length + 1 < 2 ^ 64
  proposal_eq : disk.proposals.get (safeName m.id) = some m.proposal
  head_eq : (m.proposal.get "expected_ledger_head").bind Value.asStr = lastHash before
  reviewed : (disk.reviews.get m.id).isSome

def Minted (disk : Disk) (before : List Record) (r : Record) : Prop :=
  ∃ m, MintedBy disk before r m

lemma Minted.mono {d e : Disk} (h : d.Kept e) {before : List Record} {r : Record}
    (hr : Minted d before r) : Minted e before r := by
  obtain ⟨m, hm⟩ := hr
  exact ⟨m, hm.event_eq, hm.sequence_lt, h.proposals hm.proposal_eq, hm.head_eq,
    h.reviews hm.reviewed⟩

/-- The hash of a minted event. -/
lemma MintedBy.hash {disk : Disk} {before : List Record} {r : Record} {m : Minting}
    (h : MintedBy disk before r m) :
    r.str epistemic.eventHashField = some (digestValue (.object (m.fields before))) := by
  rw [h.event_eq, str_reread, Record.str, m.get_hash before]
  rfl

/-- **The head of a ledger tells its length**, as the sequence is part of what is digested. -/
lemma length_eq_of_lastHash_eq (hdigest : Function.Injective digestValue) {disk : Disk}
    {events events' : List Record} (h : EachAfter (Minted disk) events)
    (h' : EachAfter (Minted disk) events') (hhead : lastHash events = lastHash events') :
    events.length = events'.length := by
  have hlast : ∀ {front : List Record} {last : Record},
      EachAfter (Minted disk) (front ++ [last]) → ∃ m, MintedBy disk front last m :=
    fun h => h _ _ List.prefix_rfl
  have hhash : ∀ {front : List Record} {last : Record} {m : Minting},
      MintedBy disk front last m →
        lastHash (front ++ [last]) = some (digestValue (.object (m.fields front))) := by
    intro front last m hm
    rw [lastHash, List.getLast?_concat]
    exact hm.hash
  rcases List.eq_nil_or_concat' events with rfl | ⟨front, last, rfl⟩ <;>
    rcases List.eq_nil_or_concat' events' with rfl | ⟨front', last', rfl⟩
  · rfl
  · obtain ⟨m, hm⟩ := hlast h'
    rw [hhash hm] at hhead
    cases hhead
  · obtain ⟨m, hm⟩ := hlast h
    rw [hhash hm] at hhead
    cases hhead
  · obtain ⟨m, hm⟩ := hlast h
    obtain ⟨m', hm'⟩ := hlast h'
    rw [hhash hm, hhash hm'] at hhead
    have hfields : m.fields front = m'.fields front' :=
      Value.object.inj (hdigest (Option.some.inj hhead))
    have hsequence : (Value.ofNat (front.length + 1)).asU64 =
        (Value.ofNat (front'.length + 1)).asU64 := by
      have hget := congrArg (OrderedMap.get · "sequence") hfields
      simp only [← Minting.get_event _ _ (show epistemic.eventHashField ≠ "sequence" by decide),
        Minting.get_sequence, Option.some.injEq] at hget
      rw [hget]
    rw [Value.asU64_ofNat hm.sequence_lt, Value.asU64_ofNat hm'.sequence_lt] at hsequence
    simpa using hsequence

/-! ### Proposals and answers -/

/-- What is on disk under the name of a proposal. -/
def Stored (id : String) (proposal : Value) : Prop :=
  ∃ head fresh args content draft, Drafted epistemic head fresh args content draft ∧
    id = draft.proposalId ∧ proposal = draft.stored.reread

namespace Stored

variable {id : String} {proposal : Value} (h : Stored id proposal)
include h

lemma get_id : proposal.get "proposal_id" = some (.string id) := by
  obtain ⟨_, _, _, _, draft, hdraft, rfl, rfl⟩ := h
  rw [Value.get_reread, hdraft.stored_id]
  rfl

lemma exists_digest : ∃ digest, proposal.get "digest" = some (.string digest) := by
  obtain ⟨_, _, _, _, draft, hdraft, rfl, rfl⟩ := h
  obtain ⟨digest, hdigest⟩ := hdraft.stored_digest
  rw [Value.get_reread, hdigest]
  exact ⟨digest, rfl⟩

lemma safeName_eq : safeName id = id := by
  obtain ⟨_, _, _, _, draft, hdraft, rfl, rfl⟩ := h
  rw [hdraft.proposalId_eq]
  exact safeName_proposalId _

end Stored

section

omit [FloatRead] [FloatText] [Digest]

/-- The event of an id, where it is there. -/
lemma readEvent_eq_ok {disk : Disk} {eventId : String} {event : Record} :
    readEvent epistemic disk eventId = .ok event ↔
      disk.ledger.find? (fun r => eventIdOf r.value = eventId) = some event := by
  rw [readEvent]
  cases disk.ledger.find? fun r => eventIdOf r.value = eventId <;> simp

lemma loadProposal_eq_ok {disk : Disk} {id : String} {proposal : Value} :
    loadProposal epistemic disk id = .ok proposal ↔
      disk.proposals.get (safeName id) = some proposal := by
  rw [loadProposal]
  cases disk.proposals.get (safeName id) <;> simp

lemma Names.mono {d e : Disk} (h : d.Kept e) {args : Map} {id actor : String} {proposal : Value}
    (hnames : Names epistemic d args id actor proposal) :
    Names epistemic e args id actor proposal :=
  ⟨hnames.id_eq, hnames.actor_eq,
    loadProposal_eq_ok.mpr (h.proposals (loadProposal_eq_ok.mp hnames.proposal_eq))⟩

lemma readEvent_mono {d e : Disk} (h : d.Kept e) {eventId : String} {event : Record}
    (hread : readEvent epistemic d eventId = .ok event) :
    readEvent epistemic e eventId = .ok event := by
  rw [readEvent_eq_ok] at hread ⊢
  obtain ⟨rest, hrest⟩ := h.ledger
  rw [← hrest, List.find?_append, hread]
  rfl

/-- An admission of a proposal carries its id. -/
lemma str_of_isAdmissionOf {event : Record} {id : String} {proposal : Value}
    (h : isAdmissionOf event id proposal) : event.str "proposal_id" = some id := by
  rw [isAdmissionOf, Bool.and_eq_true] at h
  rw [Record.str]
  cases hget : event.get "proposal_id" with
  | none =>
      rw [hget] at h
      cases h.1
  | some v =>
      rw [hget] at h
      cases v <;> simp_all [optionEqv, Value.eqv]

end

/-- The answer to an admission is that of an event which the marker of its key names. -/
def Settled (disk : Disk) (args : Map) (receipt : Value) : Prop :=
  ∃ id actor proposal content event, Names epistemic disk args id actor proposal ∧
    disk.markers.get (markerName (admissionKey epistemic args id proposal)) = some content ∧
    readEvent epistemic disk (Str.trim content) = .ok event ∧
    isAdmissionOf event id proposal ∧ receipt = admissionReceipt epistemic event.value

/-- The admission that holds the lock has written its event. -/
def Pending (disk : Disk) (holding : Holding) : Prop :=
  ∃ id actor proposal, Names epistemic disk holding.args id actor proposal ∧
    holding.key = admissionKey epistemic holding.args id proposal ∧
    readEvent epistemic disk (eventIdOf holding.event.value) =
      .ok (rereadRecord holding.event) ∧
    Str.trim (eventIdOf holding.event.value) = eventIdOf holding.event.value ∧
    isAdmissionOf (rereadRecord holding.event) id proposal ∧
    admissionReceipt epistemic holding.event.value =
      admissionReceipt epistemic (rereadRecord holding.event).value

omit [FloatRead] [FloatText] [Digest] in
lemma receipt_id (proposal : Value) : (proposalReceipt epistemic proposal).get "proposal_id" =
    some ((proposal.get "proposal_id").getD .null) := rfl

/-- The content that a submission finds under its key is that of the submission. -/
def SameContent (stored content : Value) : Prop :=
  ¬ (((stored.get "content_fingerprint").bind Value.asStr).isSome ∧
    ¬ optionEqv (stored.get "content_fingerprint") (some (.string (digestValue content))))

/-- The answer to a submission is about a proposal that the marker of its key names. -/
def Submitted (disk : Disk) (args : Map) (receipt : Value) : Prop :=
  ∃ content name stored, semanticContent epistemic args = .ok content ∧
    disk.proposalMarkers.get (markerName (submissionKey epistemic args content)) = some name ∧
    disk.proposals.get (Str.trim name) = some stored ∧ SameContent stored content ∧
    receipt.get "proposal_id" = stored.get "proposal_id"

omit [FloatRead] in
lemma Settled.mono {d e : Disk} (h : d.Kept e) {args : Map} {receipt : Value}
    (hs : Settled d args receipt) : Settled e args receipt := by
  obtain ⟨id, actor, proposal, content, event, hnames, hmarker, hread, his, hreceipt⟩ := hs
  exact ⟨id, actor, proposal, content, event, hnames.mono h, h.markers hmarker,
    readEvent_mono h hread, his, hreceipt⟩

lemma Pending.mono {d e : Disk} (h : d.Kept e) {holding : Holding} (hp : Pending d holding) :
    Pending e holding := by
  obtain ⟨id, actor, proposal, hnames, hkey, hread, htrim, his, hreceipt⟩ := hp
  exact ⟨id, actor, proposal, hnames.mono h, hkey, readEvent_mono h hread, htrim, his, hreceipt⟩

omit [FloatRead] in
lemma Submitted.mono {d e : Disk} (h : d.Kept e) {args : Map} {receipt : Value}
    (hs : Submitted d args receipt) : Submitted e args receipt := by
  obtain ⟨content, name, stored, hcontent, hmarker, hstored, hsame, hreceipt⟩ := hs
  exact ⟨content, name, stored, hcontent, h.proposalMarkers hmarker, h.proposals hstored,
    hsame, hreceipt⟩

/-! ### The invariant -/

/-- The invariant of a site. -/
structure Sound (s : Site) : Prop where
  stored : ∀ id proposal, s.disk.proposals.get id = some proposal → Stored id proposal
  minted : EachAfter (Minted s.disk) s.disk.ledger
  eventIds : (s.disk.ledger.map fun r => eventIdOf r.value).Nodup
  pending : ∀ holding, s.lock = some holding → Pending s.disk holding
  settled : ∀ e ∈ s.admissions, Settled s.disk e.1 e.2
  submitted : ∀ e ∈ s.submissions, Submitted s.disk e.1 e.2

lemma sound_empty : Sound .empty where
  stored id proposal h := by cases h
  minted := EachAfter.nil
  eventIds := List.nodup_nil
  pending holding h := by cases h
  settled e h := by cases h
  submitted e h := by cases h

/-- The next event of a minted ledger. -/
lemma buildEvent_ok {disk : Disk} (hminted : EachAfter (Minted disk) disk.ledger) {id : String}
    {proposal : Value} {actor key : String} {fresh : Fresh} {args : Map} {event : Record}
    (h : buildEvent epistemic disk id proposal actor key fresh args = .ok event) :
    event = Minting.event ⟨id, proposal, actor, key, fresh, args⟩ disk.ledger ∧
      disk.ledger.length + 1 < 2 ^ 64 := by
  rw [buildEvent] at h
  obtain ⟨⟨sequence, previousHash⟩, hcontext, h⟩ := bind_eq_ok h
  cases h
  have hnext : sequence = disk.ledger.length + 1 ∧ previousHash = lastHash disk.ledger ∧
      disk.ledger.length + 1 < 2 ^ 64 := by
    rw [appendContext] at hcontext
    rcases List.eq_nil_or_concat' disk.ledger with hledger | ⟨front, last, hledger⟩
    · rw [hledger] at hcontext ⊢
      cases hcontext
      exact ⟨rfl, rfl, by norm_num⟩
    · obtain ⟨m, hm⟩ : Minted disk front last := hminted front last (by rw [hledger])
      have hsequence : last.u64 "sequence" = some (front.length + 1) := by
        rw [Record.u64, hm.event_eq, get_reread, m.get_sequence]
        exact Value.asU64_ofNat hm.sequence_lt
      rw [hledger] at hcontext ⊢
      rw [List.getLast?_concat] at hcontext
      simp only [hsequence] at hcontext
      split_ifs at hcontext with hlt
      cases hcontext
      rw [lastHash, List.getLast?_concat, List.length_append]
      exact ⟨rfl, rfl, hlt⟩
  obtain ⟨rfl, rfl, hlt⟩ := hnext
  exact ⟨rfl, hlt⟩

/-- The event of an admission is its admission, as it is read back. -/
lemma isAdmissionOf_event {proposal : Value} {digest : String}
    (hdigest : proposal.get "digest" = some (.string digest)) (m : Minting)
    (hm : m.proposal = proposal) (before : List Record) :
    isAdmissionOf (rereadRecord (m.event before)) m.id proposal := by
  rw [isAdmissionOf, get_reread, get_reread, m.get_proposalId, m.get_proposalDigest, hm, hdigest]
  simp [optionEqv, Value.reread, Value.eqv]

/-- What is told of an event is the same when it is read back. -/
lemma admissionReceipt_reread {digest : String} (m : Minting)
    (hdigest : m.proposal.get "digest" = some (.string digest)) (before : List Record) :
    admissionReceipt epistemic (m.event before).value =
      admissionReceipt epistemic (rereadRecord (m.event before)).value := by
  have hget : ∀ {key : String} {v : Value}, (m.event before).get key = some v →
      v.reread = v → (rereadRecord (m.event before)).value.get key =
        (m.event before).value.get key := by
    intro key v hv hfixed
    have hread := get_reread (m.event before) key
    rw [hv, Option.map_some, hfixed, ← hv] at hread
    exact hread
  have hcount : operationCount (rereadRecord (m.event before)).value =
      operationCount (m.event before).value := by
    rw [operationCount, operationCount, operationsOf, operationsOf, rereadRecord,
      Value.get_reread]
    cases (m.event before).value.get "operations" with
    | none => rfl
    | some v =>
        rw [Option.map_some, Option.bind_some, Option.bind_some, Value.asArray_reread]
        cases v.asArray <;> simp
  rw [admissionReceipt, admissionReceipt, hcount, hget (m.get_proposalId before) rfl,
    hget (m.get_proposalDigest before) (by rw [hdigest]; rfl), hget (m.get_eventId before) rfl,
    hget (m.get_sequence before) rfl, hget (m.get_hash before) rfl]

namespace Sound

variable {s : Site} (h : Sound s)
include h

/-- What is known of the events, proposals and answers stays known. -/
lemma kept {d : Disk} (hkept : s.disk.Kept d) :
    EachAfter (Minted d) s.disk.ledger ∧
      (∀ holding, s.lock = some holding → Pending d holding) ∧
      (∀ e ∈ s.admissions, Settled d e.1 e.2) ∧
      ∀ e ∈ s.submissions, Submitted d e.1 e.2 :=
  ⟨h.minted.mono fun _ _ => Minted.mono hkept,
    fun holding hlock => (h.pending holding hlock).mono hkept,
    fun e he => (h.settled e he).mono hkept, fun e he => (h.submitted e he).mono hkept⟩

/-- A write that touches neither the ledger nor the proposals. -/
lemma write {d : Disk} (hkept : s.disk.Kept d) (hledger : d.ledger = s.disk.ledger)
    (hproposals : d.proposals = s.disk.proposals) : Sound (s.write d) := by
  obtain ⟨hminted, hpending, hsettled, hsubmitted⟩ := h.kept hkept
  refine ⟨?_, ?_, ?_, hpending, hsettled, hsubmitted⟩
  · simpa only [Site.write, hproposals] using h.stored
  · simpa only [Site.write, hledger] using hminted
  · simpa only [Site.write, hledger] using h.eventIds

/-- A submission finds its key. -/
lemma found {draft : Draft} {head : Option String} {fresh : Fresh} {args : Map} {stored : Value}
    (hdraft : draftProposal epistemic head fresh args = .ok draft)
    (hplan : planSubmission epistemic s.disk draft = .ok (some stored)) :
    Submitted s.disk args (proposalReceipt epistemic stored) := by
  obtain ⟨content, hspec⟩ := draftProposal_ok hdraft
  rw [planSubmission] at hplan
  cases hmarker : s.disk.proposalMarkers.get (markerName draft.key) with
  | none =>
      rw [hmarker] at hplan
      cases hplan
  | some name =>
      simp only [hmarker] at hplan
      cases hproposal : s.disk.proposals.get (Str.trim name) with
      | none =>
          rw [hproposal] at hplan
          cases hplan
      | some proposal =>
          simp only [hproposal] at hplan
          split_ifs at hplan with hconflict
          cases hplan
          rw [hspec.key_eq] at hmarker
          rw [hspec.fingerprint_eq] at hconflict
          refine ⟨content, name, stored, hspec.content_eq, hmarker, hproposal, hconflict, ?_⟩
          rw [receipt_id, (h.stored _ _ hproposal).get_id]
          rfl

/-- A submission writes its proposal, under a new name. -/
lemma submit {draft : Draft} {head : Option String} {fresh : Fresh} {args : Map} {d : Disk}
    (hdraft : draftProposal epistemic head fresh args = .ok draft)
    (hwrite : writeProposal epistemic s.disk draft.proposalId draft.stored = .ok d) :
    Sound (s.write d) := by
  obtain ⟨hminted, hpending, hsettled, hsubmitted⟩ := h.kept (kept_writeProposal hwrite)
  obtain ⟨content, hspec⟩ := draftProposal_ok hdraft
  obtain ⟨-, rfl⟩ := writeProposal_ok hwrite
  refine ⟨fun id proposal hget => ?_, hminted, h.eventIds, hpending, hsettled, hsubmitted⟩
  rw [Site.write, OrderedMap.get_insert] at hget
  split_ifs at hget with hid
  · cases hget
    exact ⟨head, fresh, args, content, draft, hspec, hid.symm, rfl⟩
  · exact h.stored id proposal hget

omit h in
/-- A submission writes the marker of a proposal that it has written. -/
lemma mark {draft : Draft} {head : Option String} {fresh : Fresh} {args : Map} {d : Disk}
    (hdraft : draftProposal epistemic head fresh args = .ok draft)
    (hstored : s.disk.proposals.get draft.proposalId = some draft.stored.reread)
    (hwrite : writeProposalMarker epistemic s.disk draft.key draft.proposalId = .ok d) :
    Submitted d args (proposalReceipt epistemic draft.stored) := by
  obtain ⟨content, hspec⟩ := draftProposal_ok hdraft
  have htrim : Str.trim draft.proposalId = draft.proposalId := by
    rw [hspec.proposalId_eq]
    exact trim_proposalId _
  obtain ⟨-, rfl⟩ := writeProposalMarker_ok hwrite
  refine ⟨content, draft.proposalId, draft.stored.reread, hspec.content_eq, ?_, ?_, ?_, ?_⟩
  · rw [← hspec.key_eq]
    exact OrderedMap.get_insert_self _ _ _
  · rwa [htrim]
  · rw [SameContent, Value.get_reread, hspec.stored_fingerprint, hspec.fingerprint_eq]
    simp [optionEqv, Value.reread, Value.eqv]
  · rw [receipt_id, Value.get_reread, hspec.stored_id]
    rfl

omit [FloatRead] h in
/-- A marker is written for an event that is there. -/
lemma settle {d : Disk} {args : Map} {id actor : String} {proposal : Value} {eventId : String}
    {event : Record} (hnames : Names epistemic s.disk args id actor proposal)
    (hread : readEvent epistemic s.disk eventId = .ok event)
    (htrim : Str.trim eventId = eventId) (his : isAdmissionOf event id proposal)
    (hwrite : writeMarker epistemic s.disk (admissionKey epistemic args id proposal) eventId =
      .ok d) :
    Settled d args (admissionReceipt epistemic event.value) := by
  have hkept := kept_writeMarker hwrite
  obtain ⟨-, rfl⟩ := writeMarker_ok hwrite
  refine ⟨id, actor, proposal, eventId, event, hnames.mono hkept,
    OrderedMap.get_insert_self _ _ _, ?_, his, rfl⟩
  rw [htrim]
  exact readEvent_mono hkept hread

/-- The event that an admission finds by its key is read under its id. -/
lemma read_recovered {views : Views} {fresh : Fresh} {args : Map} {key eventId : String}
    {event : Record}
    (hplan : planAdmission epistemic s.disk views fresh args = .ok (.recover key event))
    (hid : event.str "event_id" = some eventId) :
    readEvent epistemic s.disk eventId = .ok event ∧ Str.trim eventId = eventId ∧
      event.str "idempotency_key" = some key ∧
      ∃ id actor proposal, Names epistemic s.disk args id actor proposal ∧
        key = admissionKey epistemic args id proposal ∧ isAdmissionOf event id proposal := by
  obtain ⟨id, actor, proposal, hnames, ⟨_, _, -, -, -, hplan⟩ | ⟨_, hfind, his, hplan⟩ | hplan⟩ :=
    planAdmission_ok hplan
  · cases hplan
  · cases hplan
    rw [findByIdempotency_files, Except.ok.injEq] at hfind
    have hmem := List.mem_of_find?_eq_some hfind
    obtain ⟨before, hbefore⟩ := exists_before hmem
    obtain ⟨m, hm⟩ := h.minted before event hbefore
    obtain rfl : newEventId epistemic (before.length + 1) m.fresh.uuid = eventId := by
      rw [hm.event_eq, str_reread, Record.str, m.get_eventId] at hid
      exact Option.some.inj hid
    refine ⟨?_, trim_newEventId _ _, by simpa using List.find?_some hfind, id, actor, proposal,
      hnames, rfl, his⟩
    rw [readEvent_eq_ok, ← m.eventIdOf_event, ← eventIdOf_reread, ← hm.event_eq]
    exact find?_of_nodup h.eventIds hmem
  · obtain ⟨_, -, ⟨_, hplan⟩ | ⟨-, _, -, hplan⟩⟩ := planAppend_ok hplan <;> cases hplan

/-- An admission finds its event without a marker. -/
lemma recover {d : Disk} {views : Views} {fresh : Fresh} {args : Map} {key eventId : String}
    {event : Record}
    (hplan : planAdmission epistemic s.disk views fresh args = .ok (.recover key event))
    (hid : event.str "event_id" = some eventId)
    (hwrite : writeMarker epistemic s.disk key eventId = .ok d) :
    Settled d args (admissionReceipt epistemic event.value) := by
  obtain ⟨hread, htrim, -, id, actor, proposal, hnames, rfl, his⟩ := h.read_recovered hplan hid
  exact settle hnames hread htrim his hwrite

omit h in
/-- An admission finds the marker of its key. -/
lemma replay {views : Views} {fresh : Fresh} {args : Map} {event : Record}
    (hplan : planAdmission epistemic s.disk views fresh args = .ok (.replay event)) :
    Settled s.disk args (admissionReceipt epistemic event.value) := by
  obtain ⟨id, actor, proposal, hnames, ⟨content, _, hmarker, hread, his, hplan⟩ |
    ⟨_, -, -, hplan⟩ | hplan⟩ := planAdmission_ok hplan
  · cases hplan
    exact ⟨id, actor, proposal, content, event, hnames, hmarker, hread, his, rfl⟩
  · cases hplan
  · obtain ⟨_, -, ⟨_, hplan⟩ | ⟨-, _, -, hplan⟩⟩ := planAppend_ok hplan <;> cases hplan

/-- An admission writes its event. -/
lemma append {d : Disk} {views : Views} {fresh : Fresh} {args : Map} {id key : String}
    {review : Value} {event : Record}
    (hplan : planAdmission epistemic s.disk views fresh args = .ok (.append id key review event))
    (hwrite : writeEvent epistemic (s.disk.putReview id review.reread) event = .ok d) :
    Sound { s.write d with lock := some ⟨args, key, event⟩ } := by
  have hkept := (kept_putReview s.disk id review.reread).trans (kept_writeEvent hwrite)
  obtain ⟨hminted, -, hsettled, hsubmitted⟩ := h.kept hkept
  obtain ⟨hnew, rfl⟩ := writeEvent_ok hwrite
  obtain ⟨id', actor, proposal, hnames, ⟨_, _, -, -, -, hplan⟩ | ⟨_, -, -, hplan⟩ | hplan⟩ :=
    planAdmission_ok hplan
  · cases hplan
  · cases hplan
  · obtain ⟨_, -, ⟨_, hplan⟩ | ⟨hhead, _, hbuild, hplan⟩⟩ := planAppend_ok hplan
    · cases hplan
    · cases hplan
      obtain ⟨rfl, hlt⟩ := buildEvent_ok h.minted hbuild
      obtain ⟨digest, hdigest⟩ :=
        (h.stored _ _ (loadProposal_eq_ok.mp hnames.proposal_eq)).exists_digest
      refine ⟨h.stored, ?_, ?_, ?_, hsettled, hsubmitted⟩
      · refine hminted.concat ⟨_, rfl, hlt, loadProposal_eq_ok.mp hnames.proposal_eq, hhead, ?_⟩
        exact Option.isSome_of_eq_some (OrderedMap.get_insert_self _ _ _)
      · rw [Site.write, List.map_append, List.nodup_append]
        refine ⟨h.eventIds, List.nodup_singleton _, fun a ha b hb => ?_⟩
        obtain ⟨r, hr, rfl⟩ := List.mem_map.mp ha
        rw [List.map_singleton, List.mem_singleton] at hb
        rw [hb, eventIdOf_reread]
        exact hnew r hr
      · rintro holding ⟨⟩
        refine ⟨id, actor, proposal, hnames.mono hkept, rfl, ?_, ?_,
          isAdmissionOf_event hdigest _ rfl _, admissionReceipt_reread _ hdigest _⟩
        · have hnone : s.disk.ledger.find? (fun r => eventIdOf r.value =
              eventIdOf (Minting.event ⟨id, proposal, actor, _, fresh, args⟩
                s.disk.ledger).value) = none :=
            List.find?_eq_none.mpr fun r hr => by simpa using hnew r hr
          rw [readEvent_eq_ok, Site.write, List.find?_append]
          simp only [Disk.putReview, hnone, Option.none_or]
          rw [List.find?_singleton, if_pos (by simp [eventIdOf_reread])]
        · rw [Minting.eventIdOf_event]
          exact trim_newEventId _ _

end Sound

/-- **The invariant is kept by every step.** -/
theorem sound_step {s t : Site} (h : Sound s) (hstep : SiteStep epistemic s t) : Sound t := by
  have hkept := hstep.kept
  cases hstep with
  | found _ hdraft hplan =>
      refine { h with submitted := fun e he => ?_ }
      rcases List.mem_append.mp he with he | he
      · exact h.submitted e he
      · rw [List.mem_singleton.mp he]
        exact h.found hdraft hplan
  | submit _ hdraft hwrite => exact h.submit hdraft hwrite
  | mark _ hdraft hstored hwrite =>
      have hmark := Sound.mark hdraft hstored hwrite
      obtain ⟨-, rfl⟩ := writeProposalMarker_ok hwrite
      refine { h.write hkept rfl rfl with submitted := fun e he => ?_ }
      rcases List.mem_append.mp he with he | he
      · exact (h.submitted e he).mono hkept
      · rw [List.mem_singleton.mp he]
        exact hmark
  | review => exact h.write hkept rfl rfl
  | reject hreject =>
      obtain ⟨_, -, -, rfl⟩ := proposalReject_ok hreject
      exact h.write hkept rfl rfl
  | replay _ _ hplan =>
      refine { h with settled := fun e he => ?_ }
      rcases List.mem_append.mp he with he | he
      · exact h.settled e he
      · rw [List.mem_singleton.mp he]
        exact Sound.replay hplan
  | recover _ _ hplan hid hwrite =>
      have hrecover := h.recover hplan hid hwrite
      obtain ⟨-, rfl⟩ := writeMarker_ok hwrite
      refine { h.write hkept rfl rfl with settled := fun e he => ?_ }
      rcases List.mem_append.mp he with he | he
      · exact (h.settled e he).mono hkept
      · rw [List.mem_singleton.mp he]
        exact hrecover
  | append _ _ hplan hwrite => exact h.append hplan hwrite
  | finish hlock hwrite =>
      obtain ⟨id, actor, proposal, hnames, hkey, hread, htrim, his, hreceipt⟩ :=
        h.pending _ hlock
      have hsettled := Sound.settle hnames hread htrim his (hkey ▸ hwrite)
      obtain ⟨-, rfl⟩ := writeMarker_ok hwrite
      refine { h.write hkept rfl rfl with pending := by simp, settled := fun e he => ?_ }
      rcases List.mem_append.mp he with he | he
      · exact (h.settled e he).mono hkept
      · rw [List.mem_singleton.mp he, hreceipt]
        exact hsettled
  | release => exact { h with pending := by simp }
  | refresh hrefresh =>
      obtain ⟨_, -, rfl⟩ := refresh_ok hrefresh
      exact h.write hkept rfl rfl
  | lose => exact h.write hkept rfl rfl

/-- Every reachable site is sound. -/
lemma sound_invariant : (siteMachine epistemic).Invariant Sound where
  init s h := by
    rw [h]
    exact sound_empty
  step _ _ h hstep := sound_step h hstep

/-! ### Exactly once -/

namespace Sound

variable {s : Site} (h : Sound s)
include h

/-- **No proposal has two events**: they would name one head, at two lengths of the ledger. -/
lemma nodup_proposalIds (hdigest : Function.Injective digestValue) :
    (s.disk.ledger.map fun r => r.get "proposal_id").Nodup := by
  refine nodup_map_of_eachAfter fun before r hr y hy heq => ?_
  obtain ⟨first, hfirst⟩ := exists_before hy
  have hprefix : before <+: s.disk.ledger := (List.prefix_append before [r]).trans hr
  have hprefix' : first <+: s.disk.ledger :=
    (List.prefix_append first [y]).trans (hfirst.trans hprefix)
  obtain ⟨m, hm⟩ := h.minted before r hr
  obtain ⟨m', hm'⟩ := h.minted first y (hfirst.trans hprefix)
  have hid : m'.id = m.id := by
    rw [hm.event_eq, hm'.event_eq, get_reread, get_reread, m.get_proposalId,
      m'.get_proposalId] at heq
    simpa [Value.reread] using heq
  have hproposal : m'.proposal = m.proposal := by
    have hload := hm'.proposal_eq
    rw [hid, hm.proposal_eq] at hload
    exact (Option.some.inj hload).symm
  have hhead : lastHash first = lastHash before := by
    rw [← hm.head_eq, ← hm'.head_eq, hproposal]
  have hlength := length_eq_of_lastHash_eq hdigest (h.minted.of_prefix hprefix')
    (h.minted.of_prefix hprefix) hhead
  have hshorter := hfirst.length_le
  rw [List.length_append, List.length_singleton] at hshorter
  omega

/-- **An event names the head that its proposal expected.** -/
lemma previousHash_eq {r : Record} (hr : r ∈ s.disk.ledger) :
    ∃ id proposal, r.get "proposal_id" = some (.string id) ∧
      loadProposal epistemic s.disk id = .ok proposal ∧
      r.get "previous_hash" =
        some (optionText ((proposal.get "expected_ledger_head").bind Value.asStr)) := by
  obtain ⟨before, hbefore⟩ := exists_before hr
  obtain ⟨m, hm⟩ := h.minted before r hbefore
  refine ⟨m.id, m.proposal, ?_, loadProposal_eq_ok.mpr hm.proposal_eq, ?_⟩
  · rw [hm.event_eq, get_reread, m.get_proposalId]
    rfl
  · rw [hm.event_eq, get_reread, m.get_previousHash, hm.head_eq]
    cases lastHash before <;> rfl

/-- **An admission that is repeated repeats its answer**, and writes nothing. -/
lemma admit_again {args : Map} {receipt : Value} (hmem : (args, receipt) ∈ s.admissions)
    (views : Views) (fresh : Fresh) :
    proposalAdmitLocked epistemic views fresh args s.disk = (s.disk, .ok receipt) := by
  obtain ⟨id, actor, proposal, content, event, hnames, hmarker, hread, his, hreceipt⟩ :=
    h.settled _ hmem
  have hplan : planAdmission epistemic s.disk views fresh args = .ok (.replay event) := by
    rw [planAdmission]
    simp only [hnames.id_eq, hnames.actor_eq, hnames.proposal_eq, bind, Except.bind, hmarker,
      hread, his, if_true, pure, Except.pure]
  rw [proposalAdmitLocked, hplan, show receipt = _ from hreceipt]
  rfl

/-- The submission that is repeated finds its proposal. -/
lemma submit_again {args : Map} {receipt : Value} (hmem : (args, receipt) ∈ s.submissions)
    (fresh : Fresh) :
    ∃ id stored, Stored id stored ∧ receipt.get "proposal_id" = some (.string id) ∧
      proposalSubmit epistemic fresh args s.disk =
        (s.disk, .ok (proposalReceipt epistemic stored)) := by
  obtain ⟨content, name, stored, hcontent, hmarker, hproposal, hsame, hreceipt⟩ :=
    h.submitted _ hmem
  have hstored := h.stored _ _ hproposal
  obtain ⟨draft, hdraft, hspec⟩ :=
    exists_draft hcontent (ledgerHead epistemic s.disk) fresh
  refine ⟨Str.trim name, stored, hstored, hreceipt.trans hstored.get_id, ?_⟩
  have hplan : planSubmission epistemic s.disk draft = .ok (some stored) := by
    rw [planSubmission, hspec.key_eq, hmarker]
    simp only [hproposal, hspec.fingerprint_eq]
    exact if_neg hsame
  rw [proposalSubmit, hdraft]
  simp only [hplan]

/-- There is a review of an admitted proposal. -/
lemma reviewed_of_mem {event : Record} {id : String} (hmem : event ∈ s.disk.ledger)
    (hevent : event.str "proposal_id" = some id) : (s.disk.reviews.get id).isSome := by
  obtain ⟨before, hbefore⟩ := exists_before hmem
  obtain ⟨m, hm⟩ := h.minted before event hbefore
  rw [hm.event_eq, str_reread, Record.str, m.get_proposalId] at hevent
  exact Option.some.inj hevent ▸ hm.reviewed

/-- The lifecycle of an admitted proposal tells of its event. -/
lemma lifecycle_of_mem (hdigest : Function.Injective digestValue) {event : Record} {id : String}
    (hmem : event ∈ s.disk.ledger) (hevent : event.str "proposal_id" = some id) :
    proposalLifecycle epistemic s.disk id = .object [("status", .string "admitted"),
      ("event_id", (event.get "event_id").getD .null),
      ("sequence", (event.get "sequence").getD .null),
      ("ledger_head", (event.get epistemic.eventHashField).getD .null),
      ("admitted_at", (event.get "occurred_at").getD .null)] := by
  have hget : ∀ {r : Record}, r.str "proposal_id" = some id →
      r.get "proposal_id" = some (.string id) := by
    intro r hr
    obtain ⟨v, hv, hstr⟩ := Option.bind_eq_some_iff.mp hr
    rw [hv, Value.asStr_eq_some.mp hstr]
  have hfind : s.disk.ledger.find? (fun r => r.str "proposal_id" = some id) = some event := by
    cases hfind : s.disk.ledger.find? fun r => r.str "proposal_id" = some id with
    | none => exact absurd (List.find?_eq_none.mp hfind event hmem) (by simpa using hevent)
    | some r =>
        have hr : r.str "proposal_id" = some id := by simpa using List.find?_some hfind
        rw [List.inj_on_of_nodup_map (h.nodup_proposalIds hdigest)
          (List.mem_of_find?_eq_some hfind) hmem ((hget hr).trans (hget hevent).symm)]
  rw [proposalLifecycle, hfind]

/-- **The compound call that is repeated finds its event.** -/
lemma compound_again (hdigest : Function.Injective digestValue) {args : Map}
    {actor id : String} {submission receipt : Value}
    (hsubmission : (args, submission) ∈ s.submissions)
    (hid : submission.get "proposal_id" = some (.string id))
    (hadmission : (compoundArgs epistemic args actor id submission, receipt) ∈ s.admissions)
    (views : Views) (fresh : Fresh) :
    ∃ submission' review admission,
      submitReviewAdmit epistemic views fresh args s.disk = (s.disk,
        .ok (compoundReceipt epistemic "already_admitted" submission' review admission)) ∧
      ∀ key ∈ ["event_id", "sequence", "ledger_head"], admission.get key = receipt.get key := by
  obtain ⟨id', stored, hstored, hid', hsubmit⟩ := h.submit_again hsubmission fresh
  obtain rfl : id' = id := by
    rw [hid] at hid'
    simpa using hid'.symm
  obtain ⟨id'', actor', proposal, content, event, hnames, -, hread, his, hreceipt⟩ :=
    h.settled _ hadmission
  obtain rfl : id' = id'' := Option.some.inj (required_ok hnames.id_eq).1
  have hevent : event.str "proposal_id" = some id' := str_of_isAdmissionOf his
  have hmem : event ∈ s.disk.ledger := List.mem_of_find?_eq_some (readEvent_eq_ok.mp hread)
  obtain ⟨review, hreview⟩ := Option.isSome_iff_exists.mp (h.reviewed_of_mem hmem hevent)
  have hlifecycle := h.lifecycle_of_mem hdigest hmem hevent
  refine ⟨proposalReceipt epistemic stored, review, proposalLifecycle epistemic s.disk id', ?_, ?_⟩
  · have hsubmitted : ((proposalReceipt epistemic stored).get "proposal_id").bind Value.asStr =
        some id' := by
      rw [receipt_id, hstored.get_id]
      rfl
    have hstatus : (proposalLifecycle epistemic s.disk id').get "status" =
        some (.string "admitted") := by
      rw [hlifecycle]
      rfl
    rw [submitReviewAdmit, hsubmit]
    simp only [hsubmitted]
    rw [reviewAndAdmit, if_pos hstatus, hstored.safeName_eq, hreview]
  · rw [hlifecycle, show receipt = _ from hreceipt]
    intro key hkey
    fin_cases hkey <;> rfl

end Sound

/-- **Admissions happen once**: in every reachable site no two events admit one proposal, each
event names the head that its proposal expected (one that is no text counting as none), and
an admission that has succeeded gives its answer again and writes nothing, as does the
compound call. -/
theorem admission_exactly_once (hdigest : Function.Injective digestValue) {s : Site}
    (hs : (siteMachine epistemic).Reachable s) :
    (s.disk.ledger.map fun r => r.get "proposal_id").Nodup ∧
    (∀ r ∈ s.disk.ledger, ∃ id proposal, r.get "proposal_id" = some (.string id) ∧
      loadProposal epistemic s.disk id = .ok proposal ∧
      r.get "previous_hash" =
        some (optionText ((proposal.get "expected_ledger_head").bind Value.asStr))) ∧
    (∀ args receipt, (args, receipt) ∈ s.admissions → ∀ views fresh,
      proposalAdmitLocked epistemic views fresh args s.disk = (s.disk, .ok receipt)) ∧
    ∀ args actor id submission receipt, (args, submission) ∈ s.submissions →
      submission.get "proposal_id" = some (.string id) →
      (compoundArgs epistemic args actor id submission, receipt) ∈ s.admissions →
      ∀ views fresh, ∃ submission' review admission,
        submitReviewAdmit epistemic views fresh args s.disk = (s.disk,
          .ok (compoundReceipt epistemic "already_admitted" submission' review admission)) ∧
        ∀ key ∈ ["event_id", "sequence", "ledger_head"],
          admission.get key = receipt.get key := by
  have h : Sound s := hs.invariant sound_invariant
  refine ⟨h.nodup_proposalIds hdigest, fun r hr => h.previousHash_eq hr, ?_, ?_⟩
  · intro args receipt hmem views fresh
    exact h.admit_again hmem views fresh
  · intro args actor id submission receipt hsubmission hid hadmission views fresh
    exact h.compound_again hdigest hsubmission hid hadmission views fresh

end Ledger

/-! ### An admission -/

/-- The declaration of one entity, with further arguments. -/
def sampleSubmission (extra : Map) : Map :=
  [("actor", .string "alice"), ("operations", .array [.object [("op", .string "entity.declare"),
    ("entity_id", .string "e"), ("kind", .string "claim"), ("title", .string "t")]])] ++ extra

def sampleAdmission : Map :=
  [("proposal_id", .string "ep_00000000-0000-4000-8000-000000000000"),
    ("actor", .string "alice")]

/-- The files after a submission. -/
def sampleSubmitted [FloatText] [FloatRead] [Digest] (extra : Map) : Disk :=
  (proposalSubmit epistemic sampleFresh (sampleSubmission extra) Site.empty.disk).1

/-- The files after a submission and its admission. -/
def sampleDisk [FloatText] [FloatRead] [Digest] (extra : Map) : Disk :=
  (proposalAdmitLocked epistemic ⟨none, fun _ => none⟩ sampleFresh sampleAdmission
    (sampleSubmitted extra)).1

/-- The submission is a run. -/
lemma reachable_sampleSubmitted [FloatText] [FloatRead] [Digest] (extra : Map) :
    ∃ s, (siteMachine epistemic).Reachable s ∧ s.lock = none ∧
      s.Shows ⟨none, fun _ => none⟩ ∧ s.disk = sampleSubmitted extra := by
  have hempty : (siteMachine epistemic).Reachable .empty := .init rfl
  obtain ⟨s, hs, hdisk, -⟩ := reachable_proposalSubmit hempty rfl
    (Prod.mk.eta (p := proposalSubmit epistemic sampleFresh (sampleSubmission extra)
      Site.empty.disk)).symm
  have hmem : Site.empty.disk ∈ s.seen := hs.seen _ (Site.mem_seen_self _)
  exact ⟨s, hs.reachable, hs.lock, ⟨⟨_, hmem, rfl⟩, fun _ => ⟨_, hmem, rfl⟩⟩, hdisk⟩

/-- The submission and the admission are a run. -/
lemma reachable_sample [FloatText] [FloatRead] [Digest] (extra : Map) :
    ∃ s, (siteMachine epistemic).Reachable s ∧ s.disk = sampleDisk extra := by
  obtain ⟨s, hs, hlock, hviews, hdisk⟩ := reachable_sampleSubmitted extra
  obtain ⟨t, ht, hdisk', -⟩ := reachable_proposalAdmitLocked hs hlock hviews
    (Prod.mk.eta (p := proposalAdmitLocked epistemic ⟨none, fun _ => none⟩ sampleFresh
      sampleAdmission s.disk)).symm
  refine ⟨t, ht.reachable, ?_⟩
  rw [hdisk', hdisk, sampleDisk]

/-- The site after one admission. -/
theorem admission_exactly_once_sample :
    letI := FloatText.fields
    letI : Digest := ⟨id⟩
    letI : FloatRead := ⟨id⟩
    ∃ s, (siteMachine epistemic).Reachable s ∧ s.disk = sampleDisk [] ∧
      (s.disk.ledger.map fun r => r.get "proposal_id").Nodup ∧
      (∀ r ∈ s.disk.ledger, ∃ id proposal, r.get "proposal_id" = some (.string id) ∧
        loadProposal epistemic s.disk id = .ok proposal ∧
        r.get "previous_hash" =
          some (optionText ((proposal.get "expected_ledger_head").bind Value.asStr))) ∧
      ∀ args receipt, (args, receipt) ∈ s.admissions → ∀ views fresh,
        proposalAdmitLocked epistemic views fresh args s.disk = (s.disk, .ok receipt) := by
  let _ : FloatText := FloatText.fields
  let _ : Digest := ⟨id⟩
  let _ : FloatRead := ⟨id⟩
  have hdigest : Function.Injective digestValue := fun v w h =>
    Value.text_injective FloatText.fields_lawful h
  obtain ⟨s, hs, hdisk⟩ := reachable_sample []
  obtain ⟨hnodup, hprevious, hagain, -⟩ := admission_exactly_once hdigest hs
  exact ⟨s, hs, hdisk, hnodup, hprevious, hagain⟩

/-- A proposal that expects the head `42` is admitted to the empty ledger, by an event that
names no head. -/
theorem previous_hash_ne_expected :
    letI := FloatText.fields
    letI : Digest := ⟨fun _ => "h"⟩
    letI : FloatRead := ⟨id⟩
    ¬ ∀ s, (siteMachine epistemic).Reachable s → ∀ r ∈ s.disk.ledger, ∀ id proposal,
      r.get "proposal_id" = some (.string id) →
      loadProposal epistemic s.disk id = .ok proposal →
      r.get "previous_hash" = proposal.get "expected_ledger_head" := by
  let _ : FloatText := FloatText.fields
  let _ : Digest := ⟨fun _ => "h"⟩
  let _ : FloatRead := ⟨id⟩
  intro h
  obtain ⟨s, hs, hdisk⟩ := reachable_sample [("expected_ledger_head", .ofNat 42)]
  let disk := sampleDisk [("expected_ledger_head", .ofNat 42)]
  let proposalId := "ep_00000000-0000-4000-8000-000000000000"
  have hdiffers : ∃ r ∈ disk.ledger, r.get "proposal_id" = some (.string proposalId) ∧
      ∃ proposal ∈ disk.proposals.get (safeName proposalId),
        r.get "previous_hash" ≠ proposal.get "expected_ledger_head" := by decide +kernel
  obtain ⟨r, hr, hid, proposal, hproposal, hne⟩ := hdiffers
  specialize h s hs
  rw [hdisk] at h
  exact hne (h r hr proposalId proposal hid (loadProposal_eq_ok.mpr hproposal))

end LedgerDomain

end McpSurfaces
