import McpSurfaces.LedgerDomain.Proposals

/-!
The runs of a site: any number of clients submit, review, reject and admit proposals, each
file is written in one step, and a client may stop behind any of its writes.

* A client decides on what it has read before: a submission may name an earlier head of the
  ledger, a review may have met an earlier disk (`Site.past`).
* Admissions hold the lock of the ledger from their event to its marker (`Site.lock`); a
  crash in between releases it.
* `SiteStep.kept`: a step only adds to the ledger, the markers and the proposals.
* **`reachable_proposalAdmitLocked`**, **`reachable_submitReviewAdmit`**: a call that runs
  through is a run of these steps.
-/

namespace McpSurfaces

namespace LedgerDomain

open EventLedger Lists

/-! ### The steps -/

/-- An admission between its event and the marker of its key. -/
structure Holding where
  args : Map
  key : String
  event : Record

/-- The files of a site with who holds the lock of the ledger, and for the record what the
files were before and which submissions and admissions have succeeded with which answers. -/
structure Site where
  disk : Disk
  lock : Option Holding
  past : List Disk
  submissions : List (Map × Value)
  admissions : List (Map × Value)

namespace Site

/-- What a client may have read. -/
def seen (s : Site) : List Disk := s.disk :: s.past

/-- The files after a write. -/
def write (s : Site) (disk : Disk) : Site := { s with disk := disk, past := s.seen }

/-- The projections that a check of references meets were on disk at some time. -/
def Shows (s : Site) (views : Views) : Prop :=
  (∃ disk ∈ s.seen, views.references = disk.projection) ∧
    ∀ n, ∃ disk ∈ s.seen, views.lookup n = disk.projection

/-- A site without records. -/
def empty : Site where
  disk := ⟨[], [], [], [], [], [], none⟩
  lock := none
  past := []
  submissions := []
  admissions := []

end Site

section Steps

variable [FloatText] [FloatRead] [Digest]

/-- One step of a client, or a loss. -/
inductive SiteStep (domain : Domain) : Site → Site → Prop
  /-- A submission finds the proposal of its key. -/
  | found {s : Site} {earlier : Disk} {fresh : Fresh} {args : Map} {draft : Draft}
      {stored : Value} (hearlier : earlier ∈ s.seen)
      (hdraft : draftProposal domain (ledgerHead domain earlier) fresh args = .ok draft)
      (hplan : planSubmission domain s.disk draft = .ok (some stored)) :
      SiteStep domain s
        { s with submissions := s.submissions ++ [(args, proposalReceipt domain stored)] }
  /-- A submission writes its proposal. -/
  | submit {s : Site} {earlier disk : Disk} {fresh : Fresh} {args : Map} {draft : Draft}
      (hearlier : earlier ∈ s.seen)
      (hdraft : draftProposal domain (ledgerHead domain earlier) fresh args = .ok draft)
      (hwrite : writeProposal domain s.disk draft.proposalId draft.stored = .ok disk) :
      SiteStep domain s (s.write disk)
  /-- A submission writes the marker of its proposal. -/
  | mark {s : Site} {earlier disk : Disk} {fresh : Fresh} {args : Map} {draft : Draft}
      (hearlier : earlier ∈ s.seen)
      (hdraft : draftProposal domain (ledgerHead domain earlier) fresh args = .ok draft)
      (hstored : s.disk.proposals.get draft.proposalId = some draft.stored.reread)
      (hwrite : writeProposalMarker domain s.disk draft.key draft.proposalId = .ok disk) :
      SiteStep domain s { s.write disk with
        submissions := s.submissions ++ [(args, proposalReceipt domain draft.stored)] }
  /-- A review is written. -/
  | review {s : Site} {earlier : Disk} {views : Views} {id : String} {review : Value}
      (hearlier : earlier ∈ s.seen) (hviews : s.Shows views)
      (hreview : proposalReview domain earlier views id = .ok review) :
      SiteStep domain s (s.write (s.disk.putReview id review.reread))
  | reject {s : Site} {disk : Disk} {fresh : Fresh} {args : Map} {rejection : Value}
      (hreject : proposalReject domain fresh args s.disk = .ok (disk, rejection)) :
      SiteStep domain s (s.write disk)
  /-- An admission finds the marker of its key. -/
  | replay {s : Site} {views : Views} {fresh : Fresh} {args : Map} {event : Record}
      (hlock : s.lock = none) (hviews : s.Shows views)
      (hplan : planAdmission domain s.disk views fresh args = .ok (.replay event)) :
      SiteStep domain s
        { s with admissions := s.admissions ++ [(args, admissionReceipt domain event.value)] }
  /-- An admission finds its event and writes the marker that is missing. -/
  | recover {s : Site} {disk : Disk} {views : Views} {fresh : Fresh} {args : Map}
      {key eventId : String} {event : Record} (hlock : s.lock = none) (hviews : s.Shows views)
      (hplan : planAdmission domain s.disk views fresh args = .ok (.recover key event))
      (hid : event.str "event_id" = some eventId)
      (hwrite : writeMarker domain s.disk key eventId = .ok disk) :
      SiteStep domain s { s.write disk with
        admissions := s.admissions ++ [(args, admissionReceipt domain event.value)] }
  /-- An admission takes the lock and writes its event, the review before. -/
  | append {s : Site} {disk : Disk} {views : Views} {fresh : Fresh} {args : Map}
      {id key : String} {review : Value} {event : Record} (hlock : s.lock = none)
      (hviews : s.Shows views)
      (hplan : planAdmission domain s.disk views fresh args = .ok (.append id key review event))
      (hwrite : writeEvent domain (s.disk.putReview id review.reread) event = .ok disk) :
      SiteStep domain s { s.write disk with lock := some ⟨args, key, event⟩ }
  /-- The admission that holds the lock writes its marker. -/
  | finish {s : Site} {disk : Disk} {holding : Holding} (hlock : s.lock = some holding)
      (hwrite : writeMarker domain s.disk holding.key (eventIdOf holding.event.value) =
        .ok disk) :
      SiteStep domain s { s.write disk with
        lock := none
        admissions :=
          s.admissions ++ [(holding.args, admissionReceipt domain holding.event.value)] }
  /-- The lock is released, by a crash or because the marker could not be written. -/
  | release {s : Site} : SiteStep domain s { s with lock := none }
  | refresh {s : Site} {disk : Disk} (hrefresh : refresh domain s.disk = .ok disk) :
      SiteStep domain s (s.write disk)
  /-- The projection is removed. -/
  | lose {s : Site} : SiteStep domain s (s.write { s.disk with projection := none })

/-- The runs of a site. -/
def siteMachine (domain : Domain) : Machine Site where
  init s := s = .empty
  step := SiteStep domain

end Steps

/-! ### What a step keeps -/

/-- Nothing is taken from the ledger, from the markers, the proposals and the reviews. -/
structure Disk.Kept (d e : Disk) : Prop where
  ledger : d.ledger <+: e.ledger
  markers : ∀ {k v}, d.markers.get k = some v → e.markers.get k = some v
  proposals : ∀ {k v}, d.proposals.get k = some v → e.proposals.get k = some v
  proposalMarkers : ∀ {k v}, d.proposalMarkers.get k = some v → e.proposalMarkers.get k = some v
  reviews : ∀ {k}, (d.reviews.get k).isSome → (e.reviews.get k).isSome
  rejections : ∀ {k v}, d.rejections.get k = some v → e.rejections.get k = some v

namespace Disk.Kept

lemma refl (d : Disk) : d.Kept d := ⟨List.prefix_rfl, id, id, id, id, id⟩

lemma trans {d e f : Disk} (h : d.Kept e) (h' : e.Kept f) : d.Kept f where
  ledger := h.ledger.trans h'.ledger
  markers hk := h'.markers (h.markers hk)
  proposals hk := h'.proposals (h.proposals hk)
  proposalMarkers hk := h'.proposalMarkers (h.proposalMarkers hk)
  reviews hk := h'.reviews (h.reviews hk)
  rejections hk := h'.rejections (h.rejections hk)

end Disk.Kept

lemma kept_putReview (d : Disk) (proposalId : String) (review : Value) :
    d.Kept (d.putReview proposalId review) where
  ledger := List.prefix_rfl
  markers := id
  proposals := id
  proposalMarkers := id
  reviews {k} hk := by
    rw [Disk.putReview, OrderedMap.get_insert]
    split_ifs
    · rfl
    · exact hk
  rejections := id

section Writes

variable {domain : Domain} {d e : Disk}

lemma writeProposalMarker_ok {key proposalId : String}
    (h : writeProposalMarker domain d key proposalId = .ok e) :
    ¬ d.proposalMarkers.containsKey (markerName key) ∧
      e = { d with
        proposalMarkers := d.proposalMarkers.insert (markerName key) proposalId } := by
  rw [writeProposalMarker] at h
  split_ifs at h with hnew
  exact ⟨hnew, (Except.ok.inj h).symm⟩

lemma writeMarker_ok {key eventId : String} (h : writeMarker domain d key eventId = .ok e) :
    ¬ d.markers.containsKey (markerName key) ∧
      e = { d with markers := d.markers.insert (markerName key) eventId } := by
  rw [writeMarker] at h
  split_ifs at h with hnew
  exact ⟨hnew, (Except.ok.inj h).symm⟩

lemma kept_writeProposalMarker {key proposalId : String}
    (h : writeProposalMarker domain d key proposalId = .ok e) : d.Kept e := by
  obtain ⟨hnew, rfl⟩ := writeProposalMarker_ok h
  exact ⟨List.prefix_rfl, id, id, OrderedMap.get_insert_of_new hnew, id, id⟩

lemma kept_writeMarker {key eventId : String} (h : writeMarker domain d key eventId = .ok e) :
    d.Kept e := by
  obtain ⟨hnew, rfl⟩ := writeMarker_ok h
  exact ⟨List.prefix_rfl, OrderedMap.get_insert_of_new hnew, id, id, id, id⟩

variable [FloatRead]

lemma writeProposal_ok {proposalId : String} {proposal : Value}
    (h : writeProposal domain d proposalId proposal = .ok e) :
    ¬ d.proposals.containsKey proposalId ∧
      e = { d with proposals := d.proposals.insert proposalId proposal.reread } := by
  rw [writeProposal] at h
  split_ifs at h with hnew
  exact ⟨hnew, (Except.ok.inj h).symm⟩

lemma kept_writeProposal {proposalId : String} {proposal : Value}
    (h : writeProposal domain d proposalId proposal = .ok e) : d.Kept e := by
  obtain ⟨hnew, rfl⟩ := writeProposal_ok h
  exact ⟨List.prefix_rfl, id, OrderedMap.get_insert_of_new hnew, id, id, id⟩

/-- An event is written behind the others, under an id that none of them has. -/
lemma writeEvent_ok {event : Record} (h : writeEvent domain d event = .ok e) :
    (∀ r ∈ d.ledger, eventIdOf r.value ≠ eventIdOf event.value) ∧
      e = { d with ledger := d.ledger ++ [rereadRecord event] } := by
  rw [writeEvent] at h
  split_ifs at h with hnew
  refine ⟨fun r hr heq => hnew ?_, (Except.ok.inj h).symm⟩
  exact List.any_eq_true.mpr ⟨r, hr, decide_eq_true heq⟩

lemma kept_writeEvent {event : Record} (h : writeEvent domain d event = .ok e) : d.Kept e := by
  obtain ⟨-, rfl⟩ := writeEvent_ok h
  exact ⟨List.prefix_append _ _, id, id, id, id, id⟩

lemma proposalReject_ok {fresh : Fresh} {args : Map} {rejection : Value}
    (h : proposalReject domain fresh args d = .ok (e, rejection)) :
    ∃ proposalId, required domain args "proposal_id" = .ok proposalId ∧
      ¬ d.rejections.containsKey proposalId ∧
      e = { d with rejections := d.rejections.insert proposalId rejection.reread } := by
  rw [proposalReject] at h
  obtain ⟨proposalId, hid, h⟩ := bind_eq_ok h
  obtain ⟨_, -, h⟩ := bind_eq_ok h
  obtain ⟨actor, -, h⟩ := bind_eq_ok h
  obtain ⟨reason, -, h⟩ := bind_eq_ok h
  dsimp only at h
  split_ifs at h with hnew
  cases h
  exact ⟨proposalId, hid, hnew, rfl⟩

lemma kept_proposalReject {fresh : Fresh} {args : Map} {rejection : Value}
    (h : proposalReject domain fresh args d = .ok (e, rejection)) : d.Kept e := by
  obtain ⟨_, -, hnew, rfl⟩ := proposalReject_ok h
  exact ⟨List.prefix_rfl, id, id, id, id, OrderedMap.get_insert_of_new hnew⟩

variable [FloatText] [Digest]

omit [FloatRead] in
lemma refresh_ok (h : refresh domain d = .ok e) :
    ∃ store, rebuildProjectionLocked domain ⟨d.files, d.projection⟩ = .ok store ∧
      e = { d with projection := store.projection } := by
  obtain ⟨store, hstore, h⟩ := bind_eq_ok h
  exact ⟨store, hstore, (Except.ok.inj h).symm⟩

/-- **A step takes nothing away.** -/
theorem SiteStep.kept {s t : Site} (h : SiteStep domain s t) : s.disk.Kept t.disk := by
  cases h with
  | found => exact .refl _
  | submit _ _ hwrite => exact kept_writeProposal hwrite
  | mark _ _ _ hwrite => exact kept_writeProposalMarker hwrite
  | review => exact kept_putReview _ _ _
  | reject hreject => exact kept_proposalReject hreject
  | replay => exact .refl _
  | recover _ _ _ _ hwrite => exact kept_writeMarker hwrite
  | append _ _ _ hwrite => exact (kept_putReview _ _ _).trans (kept_writeEvent hwrite)
  | finish _ hwrite => exact kept_writeMarker hwrite
  | release => exact .refl _
  | refresh hrefresh =>
      obtain ⟨_, -, rfl⟩ := refresh_ok hrefresh
      exact ⟨List.prefix_rfl, id, id, id, id, id⟩
  | lose => exact ⟨List.prefix_rfl, id, id, id, id, id⟩

end Writes

/-- The scan of the ledger for a key. -/
lemma findByIdempotency_files (disk : Disk) (key : String) : findByIdempotency disk.files key =
    .ok (disk.ledger.find? fun r => r.str "idempotency_key" = some key) := by
  rw [Disk.files]
  induction disk.ledger with
  | nil => rfl
  | cons r rest ih =>
      rw [List.map_cons, findByIdempotency, List.find?_cons]
      by_cases hkey : r.str "idempotency_key" = some key
      · simp [hkey, bind, Except.bind, pure, Except.pure]
      · simpa [hkey, bind, Except.bind] using ih

section Plans

variable [FloatText] [FloatRead] [Digest] {domain : Domain}

/-- What is stored for a draft, field by field. -/
structure Drafted (domain : Domain) (head : Option String) (fresh : Fresh) (args : Map)
    (content : Value) (draft : Draft) : Prop where
  content_eq : semanticContent domain args = .ok content
  proposalId_eq : draft.proposalId = domain.proposalIdLead ++ fresh.uuid.text
  key_eq : draft.key = submissionKey domain args content
  fingerprint_eq : draft.fingerprint = digestValue content
  stored_id : draft.stored.get "proposal_id" = some (.string draft.proposalId)
  stored_head : draft.stored.get "expected_ledger_head" =
    some (resolveExpectedLedgerHead head (args.get "expected_ledger_head"))
  stored_key : draft.stored.get "idempotency_key" = some (.string draft.key)
  stored_fingerprint : draft.stored.get "content_fingerprint" = some (.string draft.fingerprint)
  stored_operations : draft.stored.get "operations" = some ((content.get "operations").getD .null)
  stored_digest : ∃ digest, draft.stored.get "digest" = some (.string digest)

omit [FloatRead] in
lemma draftProposal_ok {head : Option String} {fresh : Fresh} {args : Map} {draft : Draft}
    (h : draftProposal domain head fresh args = .ok draft) :
    ∃ content, Drafted domain head fresh args content draft := by
  rw [draftProposal] at h
  obtain ⟨content, hcontent, h⟩ := bind_eq_ok h
  cases h
  have hdigest : ∀ (payload : Map) (digest : String), OrderedMap.get payload "digest" = none →
      (Value.object (payload ++ [("digest", .string digest)])).get "digest" =
        some (.string digest) := by
    intro payload digest hnone
    rw [Value.get, OrderedMap.get_append, hnone]
    rfl
  refine ⟨content, hcontent, rfl, rfl, rfl, ?_, ?_, ?_, ?_, ?_, _, hdigest _ _ ?_⟩ <;>
    simp [Value.get, OrderedMap.get_cons]

omit [FloatRead] in
/-- What is said can be drafted. -/
lemma exists_draft {args : Map} {content : Value} (h : semanticContent domain args = .ok content)
    (head : Option String) (fresh : Fresh) :
    ∃ draft, draftProposal domain head fresh args = .ok draft ∧
      Drafted domain head fresh args content draft := by
  have hdraft : ∃ draft, draftProposal domain head fresh args = .ok draft := by
    rw [draftProposal, h]
    exact ⟨_, rfl⟩
  obtain ⟨draft, hdraft⟩ := hdraft
  obtain ⟨content', hspec⟩ := draftProposal_ok hdraft
  obtain rfl := Except.ok.inj (h.symm.trans hspec.content_eq)
  exact ⟨draft, hdraft, hspec⟩

/-- Who admits what. -/
structure Names (domain : Domain) (disk : Disk) (args : Map) (id actor : String)
    (proposal : Value) : Prop where
  id_eq : required domain args "proposal_id" = .ok id
  actor_eq : required domain args "actor" = .ok actor
  proposal_eq : loadProposal domain disk id = .ok proposal

variable {disk : Disk} {views : Views} {fresh : Fresh} {args : Map}

/-- The decision of an admission by its three sources: the marker of the key, the events of
the ledger, the review. -/
lemma planAdmission_ok {plan : AdmissionPlan}
    (h : planAdmission domain disk views fresh args = .ok plan) :
    ∃ id actor proposal, Names domain disk args id actor proposal ∧
      ((∃ content event,
          disk.markers.get (markerName (admissionKey domain args id proposal)) = some content ∧
          readEvent domain disk (Str.trim content) = .ok event ∧
          isAdmissionOf event id proposal ∧ plan = .replay event) ∨
        (∃ event, findByIdempotency disk.files (admissionKey domain args id proposal) =
            .ok (some event) ∧ isAdmissionOf event id proposal ∧
          plan = .recover (admissionKey domain args id proposal) event) ∨
        planAppend domain disk views fresh args id actor (admissionKey domain args id proposal)
          proposal = .ok plan) := by
  rw [planAdmission] at h
  obtain ⟨id, hid, h⟩ := bind_eq_ok h
  obtain ⟨actor, hactor, h⟩ := bind_eq_ok h
  obtain ⟨proposal, hproposal, h⟩ := bind_eq_ok h
  refine ⟨id, actor, proposal, ⟨hid, hactor, hproposal⟩, ?_⟩
  dsimp only at h
  cases hmarker : disk.markers.get (markerName (admissionKey domain args id proposal)) with
  | some content =>
      rw [hmarker] at h
      obtain ⟨event, hevent, h⟩ := bind_eq_ok h
      split_ifs at h with his
      cases h
      exact Or.inl ⟨content, event, rfl, hevent, his, rfl⟩
  | none =>
      rw [hmarker] at h
      obtain ⟨found, hfound, h⟩ := bind_eq_ok h
      cases found with
      | some event =>
          dsimp only at h
          split_ifs at h with his
          cases h
          exact Or.inr (Or.inl ⟨event, hfound, his, rfl⟩)
      | none => exact Or.inr (Or.inr h)

/-- Behind the review an admission is refused, or its event is the next one. -/
lemma planAppend_ok {id actor key : String} {proposal : Value} {plan : AdmissionPlan}
    (h : planAppend domain disk views fresh args id actor key proposal = .ok plan) :
    ∃ review, proposalReview domain disk views id = .ok review ∧
      ((∃ failure, plan = .refused id review failure) ∨
        (proposal.get "expected_ledger_head").bind Value.asStr = ledgerHead domain disk ∧
        ∃ event, buildEvent domain disk id proposal actor key fresh args = .ok event ∧
          plan = .append id key review event) := by
  rw [planAppend] at h
  obtain ⟨review, hreview, h⟩ := bind_eq_ok h
  refine ⟨review, hreview, ?_⟩
  by_cases hstatus : review.get "status" ≠ some (.string "policy_valid")
  · rw [if_pos hstatus] at h
    cases h
    exact Or.inl ⟨_, rfl⟩
  · rw [if_neg hstatus] at h
    dsimp only at h
    split_ifs at h with hheads
    · cases h
      exact Or.inl ⟨_, rfl⟩
    · rw [not_or, not_not, not_not] at hheads
      cases hbuild : buildEvent domain disk id proposal actor key fresh args with
      | error failure =>
          rw [hbuild] at h
          cases h
          exact Or.inl ⟨_, rfl⟩
      | ok event =>
          rw [hbuild] at h
          cases h
          exact Or.inr ⟨hheads.2, event, rfl, rfl⟩

/-- An admission that writes its review has one. -/
lemma review_of_refused {id : String} {review : Value} {failure : Failure}
    (h : planAdmission domain disk views fresh args = .ok (.refused id review failure)) :
    proposalReview domain disk views id = .ok review := by
  obtain ⟨id', actor, proposal, -, ⟨_, _, -, -, -, hplan⟩ | ⟨_, -, -, hplan⟩ | hplan⟩ :=
    planAdmission_ok h
  · cases hplan
  · cases hplan
  · obtain ⟨review', hreview, ⟨failure', hplan⟩ | ⟨-, event, -, hplan⟩⟩ := planAppend_ok hplan
    · cases hplan
      exact hreview
    · cases hplan

lemma review_of_append {id key : String} {review : Value} {event : Record}
    (h : planAdmission domain disk views fresh args = .ok (.append id key review event)) :
    proposalReview domain disk views id = .ok review := by
  obtain ⟨id', actor, proposal, -, ⟨_, _, -, -, -, hplan⟩ | ⟨_, -, -, hplan⟩ | hplan⟩ :=
    planAdmission_ok h
  · cases hplan
  · cases hplan
  · obtain ⟨review', hreview, ⟨failure', hplan⟩ | ⟨-, event, -, hplan⟩⟩ := planAppend_ok hplan
    · cases hplan
    · cases hplan
      exact hreview

end Plans

/-! ### Calls are runs -/

section Calls

variable [FloatText] [FloatRead] [Digest] {domain : Domain}

/-- A site that a run reaches from another one, which has released what it has locked. -/
structure Site.Ran (domain : Domain) (s t : Site) : Prop where
  reachable : (siteMachine domain).Reachable t
  lock : t.lock = none
  seen : ∀ disk ∈ s.seen, disk ∈ t.seen
  submissions : s.submissions ⊆ t.submissions

namespace Site

section

omit [FloatText] [FloatRead] [Digest]

lemma mem_seen_self (s : Site) : s.disk ∈ s.seen := List.mem_cons_self

lemma mem_seen_write {s : Site} {disk d : Disk} (h : d ∈ s.seen) : d ∈ (s.write disk).seen :=
  List.mem_cons_of_mem _ h

lemma Shows.mono {s t : Site} {views : Views} (h : s.Shows views)
    (hseen : ∀ disk ∈ s.seen, disk ∈ t.seen) : t.Shows views := by
  obtain ⟨⟨disk, hdisk, hviews⟩, hlookup⟩ := h
  refine ⟨⟨disk, hseen disk hdisk, hviews⟩, fun n => ?_⟩
  obtain ⟨disk, hdisk, hviews⟩ := hlookup n
  exact ⟨disk, hseen disk hdisk, hviews⟩

end

lemma Ran.self {s : Site} (h : (siteMachine domain).Reachable s) (hlock : s.lock = none) :
    Ran domain s s := ⟨h, hlock, fun _ => id, fun _ => id⟩

lemma Ran.trans {s t u : Site} (h : Ran domain s t) (h' : Ran domain t u) : Ran domain s u :=
  ⟨h'.reachable, h'.lock, fun disk hdisk => h'.seen disk (h.seen disk hdisk),
    fun _ he => h'.submissions (h.submissions he)⟩

/-- A step takes nothing off the record. -/
lemma seen_of_step {s t : Site} (h : SiteStep domain s t) : ∀ disk ∈ s.seen, disk ∈ t.seen := by
  cases h <;> intro disk hdisk <;> first | exact hdisk | exact List.mem_cons_of_mem _ hdisk

lemma submissions_of_step {s t : Site} (h : SiteStep domain s t) :
    s.submissions ⊆ t.submissions := by
  cases h <;> first | exact fun _ => id | exact List.subset_append_left _ _

/-- A step behind a run. -/
lemma Ran.step {s t u : Site} (h : Ran domain s t) (hstep : SiteStep domain t u)
    (hlock : u.lock = none) : Ran domain s u :=
  ⟨h.reachable.step hstep, hlock, fun disk hdisk => seen_of_step hstep disk (h.seen disk hdisk),
    fun _ he => submissions_of_step hstep (h.submissions he)⟩

end Site

/-- **An admission is a run**: it reaches the files it leaves, and its answer is on record. -/
theorem reachable_proposalAdmitLocked {s : Site} (hs : (siteMachine domain).Reachable s)
    (hlock : s.lock = none) {views : Views} (hviews : s.Shows views) {fresh : Fresh}
    {args : Map} {disk : Disk} {answer : Except Failure Value}
    (h : proposalAdmitLocked domain views fresh args s.disk = (disk, answer)) :
    ∃ t, Site.Ran domain s t ∧ t.disk = disk ∧
      ∀ receipt, answer = .ok receipt → (args, receipt) ∈ t.admissions := by
  have hself := Site.Ran.self hs hlock
  have hreview : ∀ {id review}, proposalReview domain s.disk views id = .ok review →
      Site.Ran domain s (s.write (s.disk.putReview id review.reread)) := fun hreview =>
    hself.step (.review s.mem_seen_self hviews hreview) hlock
  rw [proposalAdmitLocked] at h
  cases hplan : planAdmission domain s.disk views fresh args with
  | error failure =>
      rw [hplan] at h
      cases h
      exact ⟨s, hself, rfl, by simp⟩
  | ok plan =>
      rw [hplan] at h
      cases plan with
      | replay event =>
          cases h
          refine ⟨_, hself.step (.replay hlock hviews hplan) hlock, rfl, ?_⟩
          rintro receipt ⟨⟩
          simp
      | refused id review failure =>
          cases h
          exact ⟨_, hreview (review_of_refused hplan), rfl, by simp⟩
      | recover key event =>
          dsimp only [commitAdmission] at h
          cases hid : event.str "event_id" with
          | none =>
              rw [hid] at h
              cases h
              exact ⟨s, hself, rfl, by simp⟩
          | some eventId =>
              simp only [hid] at h
              cases hmarker : writeMarker domain s.disk key eventId with
              | error failure =>
                  rw [hmarker] at h
                  cases h
                  exact ⟨s, hself, rfl, by simp⟩
              | ok marked =>
                  rw [hmarker] at h
                  cases h
                  refine ⟨_, hself.step (.recover hlock hviews hplan hid hmarker) hlock, rfl, ?_⟩
                  rintro receipt ⟨⟩
                  simp
      | append id key review event =>
          dsimp only [commitAdmission, commitEvent] at h
          cases hevent : writeEvent domain (s.disk.putReview id review.reread) event with
          | error failure =>
              rw [hevent] at h
              cases h
              exact ⟨_, hreview (review_of_append hplan), rfl, by simp⟩
          | ok written =>
              simp only [hevent] at h
              -- The steps from the event to the marker hold the lock.
              have happend : SiteStep domain s { s.write written with
                  lock := some ⟨args, key, event⟩ } := .append hlock hviews hplan hevent
              have hlocked : ∀ {t : Site}, SiteStep domain { s.write written with
                  lock := some ⟨args, key, event⟩ } t → t.lock = none → Site.Ran domain s t :=
                fun hstep hlock => ⟨(hs.step happend).step hstep, hlock,
                  fun disk hdisk => Site.seen_of_step hstep disk (Site.seen_of_step happend disk hdisk),
                  fun _ he => Site.submissions_of_step hstep (Site.submissions_of_step happend he)⟩
              cases hmarker : writeMarker domain written key (eventIdOf event.value) with
              | error failure =>
                  rw [hmarker] at h
                  cases h
                  exact ⟨_, hlocked .release rfl, rfl, by simp⟩
              | ok marked =>
                  simp only [hmarker] at h
                  have hfinish := hlocked (.finish rfl hmarker) rfl
                  cases hrefresh : refresh domain marked with
                  | error failure =>
                      rw [hrefresh] at h
                      cases h
                      exact ⟨_, hfinish, rfl, by simp⟩
                  | ok refreshed =>
                      rw [hrefresh] at h
                      cases h
                      refine ⟨_, hfinish.step (.refresh hrefresh) rfl, rfl, ?_⟩
                      rintro receipt ⟨⟩
                      simp [Site.write]

/-- A submission is a run. -/
theorem reachable_proposalSubmit {s : Site} (hs : (siteMachine domain).Reachable s)
    (hlock : s.lock = none) {fresh : Fresh} {args : Map} {disk : Disk}
    {answer : Except Failure Value}
    (h : proposalSubmit domain fresh args s.disk = (disk, answer)) :
    ∃ t, Site.Ran domain s t ∧ t.disk = disk ∧
      ∀ receipt, answer = .ok receipt → (args, receipt) ∈ t.submissions := by
  have hself := Site.Ran.self hs hlock
  rw [proposalSubmit] at h
  cases hdraft : draftProposal domain (ledgerHead domain s.disk) fresh args with
  | error failure =>
      rw [hdraft] at h
      cases h
      exact ⟨s, hself, rfl, by simp⟩
  | ok draft =>
      simp only [hdraft] at h
      cases hplan : planSubmission domain s.disk draft with
      | error failure =>
          rw [hplan] at h
          cases h
          exact ⟨s, hself, rfl, by simp⟩
      | ok found =>
          cases found with
          | some stored =>
              rw [hplan] at h
              cases h
              refine ⟨_, hself.step (.found s.mem_seen_self hdraft hplan) hlock, rfl, ?_⟩
              rintro receipt ⟨⟩
              simp
          | none =>
              simp only [hplan] at h
              cases hwrite : writeProposal domain s.disk draft.proposalId draft.stored with
              | error failure =>
                  rw [hwrite] at h
                  cases h
                  exact ⟨s, hself, rfl, by simp⟩
              | ok written =>
                  simp only [hwrite] at h
                  have hsubmit := hself.step (.submit s.mem_seen_self hdraft hwrite) hlock
                  cases hmarker : writeProposalMarker domain written draft.key
                      draft.proposalId with
                  | error failure =>
                      rw [hmarker] at h
                      cases h
                      exact ⟨_, hsubmit, rfl, by simp⟩
                  | ok marked =>
                      rw [hmarker] at h
                      cases h
                      have hstored : written.proposals.get draft.proposalId =
                          some draft.stored.reread := by
                        obtain ⟨-, rfl⟩ := writeProposal_ok hwrite
                        exact OrderedMap.get_insert_self _ _ _
                      have hmark := SiteStep.mark (s := s.write written)
                        (Site.mem_seen_write s.mem_seen_self) hdraft hstored hmarker
                      refine ⟨_, hsubmit.step hmark hlock, rfl, ?_⟩
                      rintro receipt ⟨⟩
                      simp

/-- The compound call behind its submission is a run. -/
lemma reachable_reviewAndAdmit {s : Site} (hs : (siteMachine domain).Reachable s)
    (hlock : s.lock = none) {views : Views} (hviews : s.Shows views) (fresh : Fresh)
    (args : Map) (submission : Value) (id : String) :
    ∃ t, Site.Ran domain s t ∧
      t.disk = (reviewAndAdmit domain views fresh args s.disk submission id).1 := by
  have hself := Site.Ran.self hs hlock
  rw [reviewAndAdmit]
  dsimp only
  split_ifs with hlifecycle
  · cases s.disk.reviews.get (safeName id) <;> exact ⟨s, hself, rfl⟩
  · cases hreview : proposalReview domain s.disk views id with
    | error failure => exact ⟨s, hself, rfl⟩
    | ok review =>
        have hwritten := hself.step (.review s.mem_seen_self hviews hreview) hlock
        dsimp only
        split_ifs with hstatus
        · exact ⟨_, hwritten, rfl⟩
        · cases required domain args "actor" with
          | error failure => exact ⟨_, hwritten, rfl⟩
          | ok actor =>
              cases hadmission : proposalAdmitLocked domain views fresh
                  (compoundArgs domain args actor id submission)
                  (s.disk.putReview id review.reread) with
              | mk admitted answer =>
                  obtain ⟨t, hran, rfl, -⟩ := reachable_proposalAdmitLocked hwritten.reachable
                    hwritten.lock (hviews.mono hwritten.seen) hadmission
                  simp only [hadmission]
                  cases answer <;> exact ⟨t, hwritten.trans hran, rfl⟩

end Calls

end LedgerDomain

end McpSurfaces
