import McpSurfaces.LedgerDomain.Admission
import McpSurfaces.LedgerDomain.Refusals

/-!
Idempotency keys and the files that remember them. A marker is named by the safe characters
of its key, at most 120 of them, so that keys with one safe name share a marker.

* `keyed_invariant`: every marker was written for a key with its name.
* **`keys_exact_iff`**: a key is answered as a used one, by a replay or a conflict, only if it
  was recorded, exactly where no marker of a key with the same safe name says otherwise.
-/

namespace McpSurfaces

namespace LedgerDomain

open EventLedger Lists

/-! ### Markers -/

/-- A proposal is on disk under the key. -/
def RecordedProposal (disk : Disk) (key : String) : Prop :=
  ∃ id proposal, disk.proposals.get id = some proposal ∧
    proposal.get "idempotency_key" = some (.string key)

/-- An event of the ledger has the key. -/
def RecordedEvent (disk : Disk) (key : String) : Prop :=
  ∃ r ∈ disk.ledger, r.str "idempotency_key" = some key

/-- A marker was written for the proposal of the key. -/
def MarkedProposal (disk : Disk) (key : String) : Prop :=
  ∃ name proposal, disk.proposalMarkers.get (markerName key) = some name ∧
    disk.proposals.get (Str.trim name) = some proposal ∧
    proposal.get "idempotency_key" = some (.string key)

/-- A marker was written for the event of the key. -/
def MarkedEvent (disk : Disk) (key : String) : Prop :=
  ∃ content r, disk.markers.get (markerName key) = some content ∧
    readEvent epistemic disk (Str.trim content) = .ok r ∧ r.str "idempotency_key" = some key

/-- A marker is shared by the keys with one safe name. -/
lemma markerName_eq_iff {key other : String} :
    markerName key = markerName other ↔ safeName key = safeName other := by
  simp [markerName]

lemma MarkedProposal.mono {d e : Disk} (h : d.Kept e) {key : String}
    (hkey : MarkedProposal d key) : MarkedProposal e key := by
  obtain ⟨name, proposal, hmarker, hproposal, hget⟩ := hkey
  exact ⟨name, proposal, h.proposalMarkers hmarker, h.proposals hproposal, hget⟩

lemma MarkedEvent.mono {d e : Disk} (h : d.Kept e) {key : String} (hkey : MarkedEvent d key) :
    MarkedEvent e key := by
  obtain ⟨content, r, hmarker, hread, hget⟩ := hkey
  exact ⟨content, r, h.markers hmarker, readEvent_mono h hread, hget⟩

/-- Every marker was written for a key with its name. -/
structure Keyed (s : Site) : Prop where
  proposals : ∀ name id, s.disk.proposalMarkers.get name = some id →
    ∃ key, name = markerName key ∧ MarkedProposal s.disk key
  events : ∀ name content, s.disk.markers.get name = some content →
    ∃ key, name = markerName key ∧ MarkedEvent s.disk key
  lock : ∀ holding, s.lock = some holding →
    holding.event.str "idempotency_key" = some holding.key

section Keyed

variable [FloatText] [FloatRead] [Digest]

section

omit [FloatText] [FloatRead] [Digest]

/-- A step that leaves the markers leaves what they were written for. -/
lemma Keyed.kept {s : Site} (h : Keyed s) {d : Disk} (hkept : s.disk.Kept d)
    (hproposals : d.proposalMarkers = s.disk.proposalMarkers)
    (hmarkers : d.markers = s.disk.markers) : Keyed (s.write d) where
  proposals name id hname := by
    obtain ⟨key, hkey, hmarked⟩ := h.proposals name id (hproposals ▸ hname)
    exact ⟨key, hkey, hmarked.mono hkept⟩
  events name content hname := by
    obtain ⟨key, hkey, hmarked⟩ := h.events name content (hmarkers ▸ hname)
    exact ⟨key, hkey, hmarked.mono hkept⟩
  lock := h.lock

/-- A marker is written for an event with its key. -/
lemma Keyed.marker {s : Site} (h : Keyed s) {d : Disk} {key eventId : String} {event : Record}
    (hwrite : writeMarker epistemic s.disk key eventId = .ok d)
    (hread : readEvent epistemic s.disk eventId = .ok event)
    (htrim : Str.trim eventId = eventId) (hkey : event.str "idempotency_key" = some key) :
    Keyed (s.write d) := by
  have hkept := kept_writeMarker hwrite
  obtain ⟨-, rfl⟩ := writeMarker_ok hwrite
  refine ⟨fun name id hname => ?_, fun name content hname => ?_, h.lock⟩
  · obtain ⟨other, hother, hmarked⟩ := h.proposals name id hname
    exact ⟨other, hother, hmarked.mono hkept⟩
  · by_cases hsame : markerName key = name
    · refine ⟨key, hsame.symm, eventId, event, OrderedMap.get_insert_self _ _ _, ?_, hkey⟩
      rw [htrim]
      exact readEvent_mono hkept hread
    · rw [Site.write, OrderedMap.get_insert_of_ne _ _ hsame] at hname
      obtain ⟨other, hother, hmarked⟩ := h.events name content hname
      exact ⟨other, hother, hmarked.mono hkept⟩

end

/-- A marker is written for a proposal with its key. -/
lemma Keyed.mark {s : Site} (h : Keyed s) {d : Disk} {head : Option String} {fresh : Fresh}
    {args : Map} {draft : Draft} (hdraft : draftProposal epistemic head fresh args = .ok draft)
    (hstored : s.disk.proposals.get draft.proposalId = some draft.stored.reread)
    (hwrite : writeProposalMarker epistemic s.disk draft.key draft.proposalId = .ok d) :
    Keyed (s.write d) := by
  have hkept := kept_writeProposalMarker hwrite
  obtain ⟨content, hspec⟩ := draftProposal_ok hdraft
  have htrim : Str.trim draft.proposalId = draft.proposalId := by
    rw [hspec.proposalId_eq]
    exact trim_proposalId _
  obtain ⟨-, rfl⟩ := writeProposalMarker_ok hwrite
  refine ⟨fun name id hname => ?_, fun name content hname => ?_, h.lock⟩
  · by_cases hsame : markerName draft.key = name
    · refine ⟨draft.key, hsame.symm, draft.proposalId, draft.stored.reread,
        OrderedMap.get_insert_self _ _ _, ?_, ?_⟩
      · rwa [htrim]
      · rw [Value.get_reread, hspec.stored_key]
        rfl
    · rw [Site.write, OrderedMap.get_insert_of_ne _ _ hsame] at hname
      obtain ⟨other, hother, hmarked⟩ := h.proposals name id hname
      exact ⟨other, hother, hmarked.mono hkept⟩
  · obtain ⟨other, hother, hmarked⟩ := h.events name content hname
    exact ⟨other, hother, hmarked.mono hkept⟩

/-- The event that is written has the key of its admission. -/
lemma key_of_append {s : Site} (h : Sound s) {views : Views} {fresh : Fresh} {args : Map}
    {id key : String} {review : Value} {event : Record}
    (hplan : planAdmission epistemic s.disk views fresh args =
      .ok (.append id key review event)) :
    event.str "idempotency_key" = some key := by
  obtain ⟨id', actor, proposal, hnames, ⟨_, _, -, -, -, hplan⟩ | ⟨_, -, -, hplan⟩ | hplan⟩ :=
    planAdmission_ok hplan
  · cases hplan
  · cases hplan
  · obtain ⟨_, -, ⟨_, hplan⟩ | ⟨-, _, hbuild, hplan⟩⟩ := planAppend_ok hplan
    · cases hplan
    · cases hplan
      obtain ⟨rfl, -⟩ := buildEvent_ok h.minted hbuild
      rw [Record.str, Minting.get_key]
      rfl

/-- **Every step writes its markers under their keys.** -/
lemma keyed_step {s t : Site} (hsound : Sound s) (h : Keyed s)
    (hstep : SiteStep epistemic s t) : Keyed t := by
  have hkept := hstep.kept
  cases hstep with
  | found => exact ⟨h.proposals, h.events, h.lock⟩
  | submit _ _ hwrite =>
      obtain ⟨-, rfl⟩ := writeProposal_ok hwrite
      exact h.kept hkept rfl rfl
  | mark _ hdraft hstored hwrite =>
      have hmark := h.mark hdraft hstored hwrite
      exact ⟨hmark.proposals, hmark.events, hmark.lock⟩
  | review => exact h.kept hkept rfl rfl
  | reject hreject =>
      obtain ⟨_, -, -, rfl⟩ := proposalReject_ok hreject
      exact h.kept hkept rfl rfl
  | replay => exact ⟨h.proposals, h.events, h.lock⟩
  | recover _ _ hplan hid hwrite =>
      obtain ⟨hread, htrim, hkey, -⟩ := hsound.read_recovered hplan hid
      have hmarked := h.marker hwrite hread htrim hkey
      exact ⟨hmarked.proposals, hmarked.events, hmarked.lock⟩
  | append _ _ hplan hwrite =>
      have hkey := key_of_append hsound hplan
      obtain ⟨-, rfl⟩ := writeEvent_ok hwrite
      have hwritten := h.kept hkept rfl rfl
      refine ⟨hwritten.proposals, hwritten.events, ?_⟩
      rintro holding ⟨⟩
      exact hkey
  | finish hlock hwrite =>
      obtain ⟨id, actor, proposal, -, -, hread, htrim, -, -⟩ := hsound.pending _ hlock
      have hmarked := h.marker hwrite hread htrim
        ((str_reread _ _).trans (h.lock _ hlock))
      exact ⟨hmarked.proposals, hmarked.events, by simp⟩
  | release => exact ⟨h.proposals, h.events, by simp⟩
  | refresh hrefresh =>
      obtain ⟨_, -, rfl⟩ := refresh_ok hrefresh
      exact h.kept hkept rfl rfl
  | lose => exact h.kept hkept rfl rfl

lemma keyed_invariant : (siteMachine epistemic).Invariant fun s => Sound s ∧ Keyed s :=
  sound_invariant.and
    (fun s h => by
      rw [h]
      constructor <;> simp [Site.empty])
    fun _ _ hsound hkeyed hstep => keyed_step hsound hkeyed hstep

/-! ### Answers by key -/

/-- A submission finds its key used: it is answered with a proposal, or refused. -/
def SubmissionAnswered (plan : Except Failure (Option Value)) : Prop :=
  (∃ stored, plan = .ok (some stored)) ∨
    ∃ failure, plan = .error failure ∧ failure.code = some "proposal_idempotency_conflict"

/-- An admission finds its key used: it is answered with an event, or refused. -/
def AdmissionAnswered (plan : Except Failure AdmissionPlan) : Prop :=
  (∃ event, plan = .ok (.replay event)) ∨ (∃ key event, plan = .ok (.recover key event)) ∨
    ∃ failure, plan = .error failure ∧ failure.code = some "admission_idempotency_conflict"

omit [FloatText] [FloatRead] [Digest] in
/-- **A submission finds the markers of its safe name.** -/
lemma submissionAnswered_iff {s : Site} (h : Keyed s) (draft : Draft) :
    SubmissionAnswered (planSubmission epistemic s.disk draft) ↔
      ∃ other, MarkedProposal s.disk other ∧ safeName other = safeName draft.key := by
  rw [planSubmission]
  cases hmarker : s.disk.proposalMarkers.get (markerName draft.key) with
  | none =>
      constructor
      · rintro (⟨stored, hplan⟩ | ⟨failure, hplan, -⟩) <;> cases hplan
      · rintro ⟨other, ⟨name, proposal, hname, -, -⟩, hsafe⟩
        rw [markerName_eq_iff.mpr hsafe, hmarker] at hname
        cases hname
  | some name =>
      obtain ⟨other, hother, hmarked⟩ := h.proposals _ _ hmarker
      have hsafe : safeName other = safeName draft.key := markerName_eq_iff.mp hother.symm
      refine ⟨fun _ => ⟨other, hmarked, hsafe⟩, fun _ => ?_⟩
      obtain ⟨name', proposal, hname, hproposal, -⟩ := hmarked
      rw [← hother, hmarker] at hname
      cases hname
      simp only [hproposal]
      split_ifs with hconflict
      · exact Or.inr ⟨_, rfl, rfl⟩
      · exact Or.inl ⟨proposal, rfl⟩

/-- Behind the lookups nothing is answered by key. -/
lemma not_admissionAnswered_append {disk : Disk} {views : Views} {fresh : Fresh} {args : Map}
    {id actor key : String} {proposal : Value} :
    ¬ AdmissionAnswered (planAppend epistemic disk views fresh args id actor key proposal) := by
  rintro (⟨event, hplan⟩ | ⟨_, event, hplan⟩ | ⟨failure, hplan, hcode⟩)
  · obtain ⟨_, -, ⟨_, hplan⟩ | ⟨-, _, -, hplan⟩⟩ := planAppend_ok hplan <;> cases hplan
  · obtain ⟨_, -, ⟨_, hplan⟩ | ⟨-, _, -, hplan⟩⟩ := planAppend_ok hplan <;> cases hplan
  · have hfails : Fails (Coded reviewCodes)
        (planAppend epistemic disk views fresh args id actor key proposal) := by
      refine .bind (fails_proposalReview disk views id) fun review => .ite (.ok _) ?_
      dsimp only
      refine .ite (.ok _) ?_
      cases buildEvent epistemic disk id proposal actor key fresh args <;> exact .ok _
    obtain ⟨code, hmem, hcode'⟩ := hfails failure hplan
    rw [hcode, Option.some.injEq] at hcode'
    rw [← hcode'] at hmem
    exact absurd hmem (by decide)

/-- **An admission finds the markers of its safe name and the events of its key.** -/
lemma admissionAnswered_iff {s : Site} (h : Keyed s) {views : Views} {fresh : Fresh}
    {args : Map} {id actor : String} {proposal : Value}
    (hnames : Names epistemic s.disk args id actor proposal) :
    AdmissionAnswered (planAdmission epistemic s.disk views fresh args) ↔
      (∃ other, MarkedEvent s.disk other ∧
        safeName other = safeName (admissionKey epistemic args id proposal)) ∨
      RecordedEvent s.disk (admissionKey epistemic args id proposal) := by
  rw [planAdmission]
  simp only [hnames.id_eq, hnames.actor_eq, hnames.proposal_eq, bind, Except.bind]
  cases hmarker : s.disk.markers.get (markerName (admissionKey epistemic args id proposal)) with
  | some content =>
      obtain ⟨other, hother, hmarked⟩ := h.events _ _ hmarker
      refine ⟨fun _ => Or.inl ⟨other, hmarked, markerName_eq_iff.mp hother.symm⟩, fun _ => ?_⟩
      obtain ⟨content', r, hcontent, hread, -⟩ := hmarked
      rw [← hother, hmarker] at hcontent
      cases hcontent
      simp only [hread]
      split_ifs with his
      · exact Or.inl ⟨r, rfl⟩
      · exact Or.inr (Or.inr ⟨_, rfl, rfl⟩)
  | none =>
      simp only [findByIdempotency_files]
      cases hfind : s.disk.ledger.find? fun r =>
          r.str "idempotency_key" = some (admissionKey epistemic args id proposal) with
      | some event =>
          have hevent : RecordedEvent s.disk (admissionKey epistemic args id proposal) :=
            ⟨event, List.mem_of_find?_eq_some hfind, by simpa using List.find?_some hfind⟩
          refine ⟨fun _ => Or.inr hevent, fun _ => ?_⟩
          dsimp only
          split_ifs with his
          · exact Or.inr (Or.inl ⟨_, event, rfl⟩)
          · exact Or.inr (Or.inr ⟨_, rfl, rfl⟩)
      | none =>
          refine ⟨fun hanswered => absurd hanswered not_admissionAnswered_append, ?_⟩
          rintro (⟨other, ⟨content, r, hcontent, -, -⟩, hsafe⟩ | ⟨r, hr, hkey⟩)
          · rw [markerName_eq_iff.mpr hsafe, hmarker] at hcontent
            cases hcontent
          · exact absurd (List.find?_eq_none.mp hfind r hr) (by simpa using hkey)

/-- An admission that is answered by its key names a proposal. -/
lemma names_of_answered {disk : Disk} {views : Views} {fresh : Fresh} {args : Map}
    (h : AdmissionAnswered (planAdmission epistemic disk views fresh args)) :
    ∃ id actor proposal, Names epistemic disk args id actor proposal := by
  rcases h with ⟨event, hplan⟩ | ⟨_, event, hplan⟩ | ⟨failure, hplan, hcode⟩
  · obtain ⟨id, actor, proposal, hnames, -⟩ := planAdmission_ok hplan
    exact ⟨id, actor, proposal, hnames⟩
  · obtain ⟨id, actor, proposal, hnames, -⟩ := planAdmission_ok hplan
    exact ⟨id, actor, proposal, hnames⟩
  · have hcoded : ∀ {e : Failure}, Coded reviewCodes e → e = failure → False := by
      rintro e ⟨code, hmem, hcode'⟩ rfl
      rw [hcode, Option.some.injEq] at hcode'
      rw [← hcode'] at hmem
      exact absurd hmem (by decide)
    rw [planAdmission] at hplan
    cases hid : required epistemic args "proposal_id" with
    | error e =>
        rw [hid] at hplan
        exact (hcoded (fails_required _ _ e hid) (Except.error.inj hplan)).elim
    | ok id =>
        cases hactor : required epistemic args "actor" with
        | error e =>
            rw [hid, hactor] at hplan
            exact (hcoded (fails_required _ _ e hactor) (Except.error.inj hplan)).elim
        | ok actor =>
            cases hproposal : loadProposal epistemic disk id with
            | error e =>
                rw [hid, hactor] at hplan
                simp only [bind, Except.bind, hproposal, Except.error.injEq] at hplan
                exact (hcoded (fails_loadProposal _ _ e hproposal) hplan).elim
            | ok proposal => exact ⟨id, actor, proposal, hid, hactor, hproposal⟩

omit [FloatRead] [FloatText] [Digest] in
/-- A key that is supplied is the key of the submission and of the admission. -/
lemma textOr_of_nonBlank {args : Map} {key value default : String}
    (h : nonBlank args key = some value) : textOr args key default = value := by
  rw [textOr, h]
  rfl

/-- **Keys interfere through their safe names only**: in every reachable site a supplied key
is answered as a used one only if it was recorded, exactly if it was recorded or no marker
was written for a key with the same safe name. -/
theorem keys_exact_iff {s : Site} (hs : (siteMachine epistemic).Reachable s) {args : Map}
    {key : String} (hkey : nonBlank args "idempotency_key" = some key) (head : Option String)
    (fresh : Fresh) (views : Views) :
    (((∃ draft, draftProposal epistemic head fresh args = .ok draft ∧
          SubmissionAnswered (planSubmission epistemic s.disk draft)) →
        RecordedProposal s.disk key) ↔
      ((∃ content, semanticContent epistemic args = .ok content) ∧
          (∃ other, MarkedProposal s.disk other ∧ safeName other = safeName key) →
        RecordedProposal s.disk key)) ∧
    ((AdmissionAnswered (planAdmission epistemic s.disk views fresh args) →
        RecordedEvent s.disk key) ↔
      ((∃ id actor proposal, Names epistemic s.disk args id actor proposal) ∧
          (∃ other, MarkedEvent s.disk other ∧ safeName other = safeName key) →
        RecordedEvent s.disk key)) := by
  obtain ⟨-, hkeyed⟩ : Sound s ∧ Keyed s := hs.invariant keyed_invariant
  constructor
  · have hdrafts : (∃ draft, draftProposal epistemic head fresh args = .ok draft ∧
        SubmissionAnswered (planSubmission epistemic s.disk draft)) ↔
        (∃ content, semanticContent epistemic args = .ok content) ∧
          ∃ other, MarkedProposal s.disk other ∧ safeName other = safeName key := by
      constructor
      · rintro ⟨draft, hdraft, hanswered⟩
        obtain ⟨content, hspec⟩ := draftProposal_ok hdraft
        have hsame : draft.key = key := hspec.key_eq.trans (textOr_of_nonBlank hkey)
        exact ⟨⟨content, hspec.content_eq⟩, hsame ▸ (submissionAnswered_iff hkeyed draft).mp hanswered⟩
      · rintro ⟨⟨content, hcontent⟩, hmarked⟩
        obtain ⟨draft, hdraft, hspec⟩ := exists_draft hcontent head fresh
        have hsame : draft.key = key := hspec.key_eq.trans (textOr_of_nonBlank hkey)
        exact ⟨draft, hdraft, (submissionAnswered_iff hkeyed draft).mpr (hsame ▸ hmarked)⟩
    rw [hdrafts]
  · constructor
    · rintro h ⟨⟨id, actor, proposal, hnames⟩, hmarked⟩
      have hsame : admissionKey epistemic args id proposal = key := textOr_of_nonBlank hkey
      exact h ((admissionAnswered_iff hkeyed hnames).mpr (Or.inl (hsame ▸ hmarked)))
    · intro h hanswered
      obtain ⟨id, actor, proposal, hnames⟩ : ∃ id actor proposal,
          Names epistemic s.disk args id actor proposal := names_of_answered hanswered
      have hsame : admissionKey epistemic args id proposal = key := textOr_of_nonBlank hkey
      rcases (admissionAnswered_iff hkeyed hnames).mp hanswered with hmarked | hrecorded
      · exact h ⟨⟨id, actor, proposal, hnames⟩, hsame ▸ hmarked⟩
      · exact hsame ▸ hrecorded

end Keyed

/-- After a submission under one key, another key. -/
theorem keys_exact_iff_sample :
    letI := FloatText.fields
    letI : Digest := ⟨id⟩
    letI : FloatRead := ⟨id⟩
    ∃ s, (siteMachine epistemic).Reachable s ∧
      s.disk = sampleSubmitted [("idempotency_key", .string "один")] ∧
      ((AdmissionAnswered (planAdmission epistemic s.disk ⟨none, fun _ => none⟩ sampleFresh
          (sampleAdmission ++ [("idempotency_key", .string "два")])) →
        RecordedEvent s.disk "два") ↔
      ((∃ id actor proposal, Names epistemic s.disk
          (sampleAdmission ++ [("idempotency_key", .string "два")]) id actor proposal) ∧
          (∃ other, MarkedEvent s.disk other ∧ safeName other = safeName "два") →
        RecordedEvent s.disk "два")) := by
  let _ : FloatText := FloatText.fields
  let _ : Digest := ⟨id⟩
  let _ : FloatRead := ⟨id⟩
  obtain ⟨s, hs, -, -, hdisk⟩ := reachable_sampleSubmitted [("idempotency_key", .string "один")]
  exact ⟨s, hs, hdisk, (keys_exact_iff hs (by decide) none sampleFresh _).2⟩

/-- The code of a refused submission. -/
def submissionCode (plan : Except Failure (Option Value)) : Option String :=
  match plan with
  | .error failure => failure.code
  | .ok _ => none

lemma submissionAnswered_of_code {plan : Except Failure (Option Value)}
    (h : submissionCode plan = some "proposal_idempotency_conflict") :
    SubmissionAnswered plan := by
  cases plan with
  | error failure => exact Or.inr ⟨failure, rfl, h⟩
  | ok found => cases h

/-- After a submission under one key, a submission of other content under another key is
refused as a conflict: both keys have the empty safe name. -/
theorem distinct_keys_conflict :
    letI := FloatText.fields
    letI : Digest := ⟨id⟩
    letI : FloatRead := ⟨id⟩
    ¬ ∀ s, (siteMachine epistemic).Reachable s → ∀ args key,
      nonBlank args "idempotency_key" = some key → ∀ head fresh draft,
      draftProposal epistemic head fresh args = .ok draft →
      SubmissionAnswered (planSubmission epistemic s.disk draft) →
      RecordedProposal s.disk key := by
  let _ : FloatText := FloatText.fields
  let _ : Digest := ⟨id⟩
  let _ : FloatRead := ⟨id⟩
  intro h
  obtain ⟨s, hs, -, -, hdisk⟩ := reachable_sampleSubmitted [("idempotency_key", .string "один")]
  let disk := sampleSubmitted [("idempotency_key", .string "один")]
  let args := sampleSubmission [("idempotency_key", .string "два"), ("authority_basis", .object [])]
  let draft := (draftProposal epistemic none sampleFresh args).toOption.getD ⟨"", "", "", .null⟩
  have hdraft : draftProposal epistemic none sampleFresh args = .ok draft :=
    eq_ok_of_isSome (by decide +kernel) _
  have hanswered : SubmissionAnswered (planSubmission epistemic disk draft) :=
    submissionAnswered_of_code (by decide +kernel)
  have hunrecorded : ∀ e ∈ disk.proposals,
      e.2.get "idempotency_key" ≠ some (.string "два") := by decide +kernel
  specialize h s hs args "два" (by decide) none sampleFresh draft hdraft
  rw [hdisk] at h
  obtain ⟨id, proposal, hproposal, hkey⟩ := h hanswered
  exact hunrecorded _ (OrderedMap.mem_of_get hproposal) hkey

end LedgerDomain

end McpSurfaces
