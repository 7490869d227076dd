import McpSurfaces.LedgerDomain.Admittable
import McpSurfaces.LedgerDomain.Lifecycle

/-!
The compound call that is repeated: `submit_review_admit` without a head, and without a key of
its own.

* **`reviewAndAdmit_iff`**: behind its submission the call ends admitted exactly if the proposal
  is admitted, or expects the current head and can be admitted.
* `Retryable`: the proposal that the key of a submission names, if any, has its content and is
  such a proposal.
* **`retry_exact`**: the call ends admitted exactly if its content is retryable under the key
  that is derived from it. A proposal that expects another head is none of these, and the
  submission finds it again every time (`stale_submission_refused`).
-/

namespace McpSurfaces

namespace LedgerDomain

open EventLedger Lists

section Compound

variable [FloatText] [FloatRead] [Digest] {s : Site} (hs : (siteMachine epistemic).Reachable s)
  {views : Views} {fresh : Fresh} {args : Map} {id actor key : String} {proposal : Value}

/-! ### The compound call -/

/-- A call has ended with an admitted proposal. -/
def EndsAdmitted (answer : Except Failure Value) : Prop :=
  ∃ receipt, answer = .ok receipt ∧ (receipt.get "status" = some (.string "admitted") ∨
    receipt.get "status" = some (.string "already_admitted"))

/-- The key under which the compound call admits a proposal. -/
def compoundKey (id : String) (proposal : Value) : String :=
  derivedIdempotencyKey epistemic.admissionKeyRecipe (.object [("proposal_id", .string id),
    ("proposal_digest", (proposal.get "digest").getD .null)])

/-- The proposal of an id passes the checks of its review. -/
structure Passes (disk : Disk) (views : Views) (id : String) (proposal : Value) : Prop where
  proposal_eq : loadProposal epistemic disk id = .ok proposal
  checked : ∃ operations, (proposal.get "operations").bind Value.asArray = some operations ∧
    validateOperations epistemic operations true = .ok () ∧
    validateReferences epistemic views operations = .ok ()

/-- The review of a proposal that passes says whether it expects the current head. -/
lemma exists_review {disk : Disk} (h : Passes disk views id proposal) :
    ∃ review, proposalReview epistemic disk views id = .ok review ∧
      (review.get "status" = some (.string "policy_valid") ↔
        (proposal.get "expected_ledger_head").bind Value.asStr = ledgerHead epistemic disk) := by
  obtain ⟨operations, hoperations, hvalid, hreferences⟩ := h.checked
  have hreview : ∃ review, proposalReview epistemic disk views id = .ok review ∧
      review.get "status" = some (.string
        (if (proposal.get "expected_ledger_head").bind Value.asStr = ledgerHead epistemic disk
          then "policy_valid" else "stale")) := by
    rw [proposalReview, h.proposal_eq]
    simp only [bind, Except.bind, hoperations, hvalid, hreferences]
    refine ⟨_, rfl, ?_⟩
    by_cases hhead : (proposal.get "expected_ledger_head").bind Value.asStr =
        ledgerHead epistemic disk
    · simp only [hhead, decide_true, if_true]
      rfl
    · simp only [hhead, decide_false, Bool.false_eq_true, if_false]
      rfl
  obtain ⟨review, hreview, hstatus⟩ := hreview
  refine ⟨review, hreview, ?_⟩
  rw [hstatus]
  split_ifs with hhead <;> simp [hhead]

omit [FloatText] [FloatRead] [Digest] in
/-- A head that is the current one is resolved to it. -/
lemma resolve_current {head : Option String} {v : Value} (h : v.asStr = head) :
    (resolveExpectedLedgerHead head (some v)).asStr = head := by
  unfold resolveExpectedLedgerHead
  split
  · rename_i hnone
    cases hnone
  · cases head <;> rfl
  · rename_i heq
    cases heq
    exact h

/-- What the compound call hands to its admission is about the stored proposal. -/
structure Describes (submission proposal : Value) : Prop where
  digest_eq : (submission.get "proposal_digest").getD .null = (proposal.get "digest").getD .null
  head_eq : ((submission.get "expected_ledger_head").getD .null).asStr =
    (proposal.get "expected_ledger_head").bind Value.asStr

omit [FloatRead] in
lemma admissionKey_compound {submission : Value} (h : Describes submission proposal) :
    admissionKey epistemic (compoundArgs epistemic args actor id submission) id proposal =
      compoundKey id proposal := by
  have hkey : (compoundArgs epistemic args actor id submission).get "idempotency_key" =
      some (.string (compoundKey id proposal)) := by
    rw [compoundKey, ← h.digest_eq]
    rfl
  rw [admissionKey, textOr, nonBlank, hkey, Option.bind_some, Value.asStr, Option.filter]
  split
  · rfl
  · rfl

omit [FloatText] [FloatRead] [Digest] in
/-- A text that is not blank is accepted as an argument. -/
lemma required_of_get {object : Map} {key value : String}
    (hget : OrderedMap.get object key = some (.string value)) (hblank : ¬ Str.isBlank value) :
    required epistemic object key = .ok value := by
  rw [required, nonBlank, hget, Option.bind_some, Value.asStr, Option.filter_some, if_pos]
  simpa using hblank

/-- The id of a stored proposal is no blank text. -/
lemma Stored.not_isBlank (h : Stored id proposal) : ¬ Str.isBlank id := by
  obtain ⟨_, _, _, _, draft, hdraft, rfl, -⟩ := h
  rw [hdraft.proposalId_eq, Str.isBlank, String.toList_append, List.all_append]
  exact Bool.false_ne_true

include hs in
/-- **The compound call behind its submission** ends admitted exactly if the proposal is
admitted, or expects the current head and can be admitted. -/
theorem reviewAndAdmit_iff (hinjective : Function.Injective digestValue) (hlock : s.lock = none)
    (hviews : s.Shows views) (hpasses : Passes s.disk views id proposal)
    (hstored : Stored id proposal) (hactor : required epistemic args "actor" = .ok actor)
    {submission : Value} (hdescribes : Describes submission proposal) :
    EndsAdmitted (reviewAndAdmit epistemic views fresh args s.disk submission id).2 ↔
      (∃ r ∈ s.disk.ledger, r.str "proposal_id" = some id) ∨
      (proposal.get "expected_ledger_head").bind Value.asStr = ledgerHead epistemic s.disk ∧
        Admittable s.disk args (compoundKey id proposal) proposal := by
  have hsound : Sound s := hs.invariant sound_invariant
  rw [reviewAndAdmit]
  by_cases hadmitted : ∃ r ∈ s.disk.ledger, r.str "proposal_id" = some id
  · -- The proposal has its event, and a review besides.
    refine iff_of_true ?_ (Or.inl hadmitted)
    obtain ⟨event, hmem, hevent⟩ := hadmitted
    obtain ⟨review, hreview⟩ := Option.isSome_iff_exists.mp (hsound.reviewed_of_mem hmem hevent)
    have hlifecycle := hsound.lifecycle_of_mem hinjective hmem hevent
    have hstatus : (proposalLifecycle epistemic s.disk id).get "status" =
        some (.string "admitted") := by
      rw [hlifecycle]
      rfl
    dsimp only
    rw [if_pos hstatus, hstored.safeName_eq, hreview]
    exact ⟨_, rfl, Or.inr rfl⟩
  · have hnew : ∀ r ∈ s.disk.ledger, r.str "proposal_id" ≠ some id :=
      fun r hr hid => hadmitted ⟨r, hr, hid⟩
    have hstatus : (proposalLifecycle epistemic s.disk id).get "status" ≠
        some (.string "admitted") :=
      status_ne_admitted (List.find?_eq_none.mpr fun r hr => by simpa using hnew r hr)
    obtain ⟨review, hreview, hcurrent⟩ := exists_review hpasses
    rw [or_iff_right hadmitted, if_neg hstatus, hreview]
    dsimp only
    by_cases hhead : (proposal.get "expected_ledger_head").bind Value.asStr =
        ledgerHead epistemic s.disk
    · have hvalid := hcurrent.mpr hhead
      rw [if_neg (not_not.mpr hvalid), hactor]
      dsimp only
      -- The site with the review is reachable, and its admission is known.
      have hreviewed := hs.step (SiteStep.review s.mem_seen_self hviews hreview)
      have hnames : Names epistemic (s.disk.putReview id review.reread)
          (compoundArgs epistemic args actor id submission) id actor proposal := by
        exact ⟨required_of_get rfl hstored.not_isBlank,
          required_of_get rfl (required_ok hactor).2, hpasses.proposal_eq⟩
      have hadmission : (∃ receipt, (proposalAdmitLocked epistemic views fresh
          (compoundArgs epistemic args actor id submission)
          (s.disk.putReview id review.reread)).2 = .ok receipt) ↔
            Admittable (s.disk.putReview id review.reread)
              (compoundArgs epistemic args actor id submission) (compoundKey id proposal)
              proposal := by
        rw [← admissionKey_compound hdescribes]
        exact admit_iff hreviewed hinjective hlock (hviews.mono fun _ => Site.mem_seen_write)
          hnames hreview hvalid (resolve_current (hdescribes.head_eq.trans hhead)) hhead hnew
      rw [and_iff_right hhead]
      refine Iff.trans ?_ (hadmission.trans ⟨fun h => ?_, fun h => ?_⟩)
      · cases hcall : proposalAdmitLocked epistemic views fresh
            (compoundArgs epistemic args actor id submission)
            (s.disk.putReview id review.reread) with
        | mk admitted answer =>
            cases answer with
            | error failure =>
                refine iff_of_false ?_ ?_
                · rintro ⟨receipt, h, -⟩
                  cases h
                · rintro ⟨receipt, h⟩
                  cases h
            | ok receipt => exact ⟨fun _ => ⟨receipt, rfl⟩, fun _ => ⟨_, rfl, Or.inl rfl⟩⟩
      · exact ⟨h.unmarked, h.unused, h.room, h.verifies, h.readsBack⟩
      · exact ⟨h.unmarked, h.unused, h.room, h.verifies, h.readsBack⟩
    · have hstale : review.get "status" ≠ some (.string "policy_valid") :=
        fun hvalid => hhead (hcurrent.mp hvalid)
      rw [if_pos hstale]
      refine iff_of_false ?_ fun h => hhead h.1
      rintro ⟨receipt, h, -⟩
      cases h

/-! ### The submission -/

/-- A key names a proposal with this content. -/
structure Resubmits (disk : Disk) (key : String) (content : Value) (id : String)
    (stored : Value) : Prop where
  named : ∃ name, disk.proposalMarkers.get (markerName key) = some name ∧ Str.trim name = id
  stored_eq : disk.proposals.get id = some stored
  same : SameContent stored content

variable {head : Option String} {content : Value} {draft : Draft}

omit [FloatText] [FloatRead] [Digest] in
/-- A submission finds nothing where its key has no marker. -/
lemma planSubmission_eq_none :
    planSubmission epistemic s.disk draft = .ok none ↔
      s.disk.proposalMarkers.get (markerName draft.key) = none := by
  rw [planSubmission]
  cases s.disk.proposalMarkers.get (markerName draft.key) with
  | none => simp
  | some name =>
      cases hproposal : s.disk.proposals.get (Str.trim name) with
      | none => simp [hproposal]
      | some stored =>
          simp only [hproposal]
          split_ifs <;> simp

omit [FloatRead] in
/-- A submission finds the proposal that its key names. -/
lemma planSubmission_eq_some (h : Drafted epistemic head fresh args content draft)
    {stored : Value} :
    planSubmission epistemic s.disk draft = .ok (some stored) ↔
      ∃ id, Resubmits s.disk draft.key content id stored := by
  rw [planSubmission]
  constructor
  · intro hplan
    cases hmarker : s.disk.proposalMarkers.get (markerName draft.key) with
    | none =>
        rw [hmarker] at hplan
        cases hplan
    | some name =>
        simp only [hmarker] at hplan
        cases hproposal : s.disk.proposals.get (Str.trim name) with
        | none =>
            rw [hproposal] at hplan
            cases hplan
        | some proposal =>
            simp only [hproposal, h.fingerprint_eq] at hplan
            split_ifs at hplan with hconflict
            cases hplan
            exact ⟨Str.trim name, ⟨name, hmarker, rfl⟩, hproposal, hconflict⟩
  · rintro ⟨_, ⟨name, hmarker, rfl⟩, hproposal, hsame⟩
    simp only [hmarker, hproposal, h.fingerprint_eq]
    exact if_neg hsame

/-- A stored proposal with the content of a submission has its operations. -/
lemma Stored.get_operations (hinjective : Function.Injective digestValue) (h : Stored id proposal)
    (hsame : SameContent proposal content) :
    proposal.get "operations" = some ((content.get "operations").getD .null).reread := by
  obtain ⟨_, _, _, content', draft, hdraft, -, rfl⟩ := h
  have hfingerprint : draft.stored.reread.get "content_fingerprint" =
      some (.string (digestValue content')) := by
    rw [Value.get_reread, hdraft.stored_fingerprint, hdraft.fingerprint_eq]
    rfl
  rw [SameContent, hfingerprint] at hsame
  have hdigest : digestValue content' = digestValue content := by
    by_contra hne
    exact hsame ⟨rfl, by simpa [optionEqv, Value.eqv] using hne⟩
  rw [Value.get_reread, hdraft.stored_operations, hinjective hdigest]
  rfl

omit [FloatRead] in
/-- A submission that is accepted names its actor. -/
lemma actor_of_semanticContent (h : semanticContent epistemic args = .ok content) :
    ∃ actor, required epistemic args "actor" = .ok actor := by
  rw [semanticContent] at h
  obtain ⟨actor, hactor, -⟩ := bind_eq_ok h
  exact ⟨actor, hactor⟩

omit [FloatText] [FloatRead] [Digest] in
/-- A receipt describes the proposal it is of. -/
lemma describes_receipt (proposal : Value) :
    Describes (proposalReceipt epistemic proposal) proposal := by
  refine ⟨rfl, ?_⟩
  have hhead : (proposalReceipt epistemic proposal).get "expected_ledger_head" =
    some ((proposal.get "expected_ledger_head").getD .null) := rfl
  rw [hhead, Option.getD_some]
  cases proposal.get "expected_ledger_head" <;> rfl

lemma describes_receipt_reread (h : Drafted epistemic head fresh args content draft) :
    Describes (proposalReceipt epistemic draft.stored) draft.stored.reread := by
  have hdescribes := describes_receipt draft.stored
  obtain ⟨digest, hdigest⟩ := h.stored_digest
  refine ⟨?_, ?_⟩
  · rw [hdescribes.digest_eq, Value.get_reread, hdigest]
    rfl
  · rw [hdescribes.head_eq, Value.get_asStr_reread]

/-- The condition under which the compound call of a content under a key ends admitted. -/
inductive Retryable (disk : Disk) (fresh : Fresh) (args : Map) (content : Value) (key : String) :
    Prop
  /-- The key names no proposal, and the new one has an id of its own and can be admitted. -/
  | unsubmitted {draft : Draft}
      (hdraft : draftProposal epistemic (ledgerHead epistemic disk) fresh args = .ok draft)
      (hunmarked : disk.proposalMarkers.get (markerName key) = none)
      (hnew : ¬ disk.proposals.containsKey draft.proposalId)
      (hadmittable : Admittable disk args (compoundKey draft.proposalId draft.stored.reread)
        draft.stored.reread)
  /-- The key names a proposal with the content that is admitted. -/
  | admitted {id : String} {stored : Value} (hnamed : Resubmits disk key content id stored)
      (hevent : ∃ r ∈ disk.ledger, r.str "proposal_id" = some id)
  /-- The key names a proposal with the content that expects the current head and can be
  admitted. -/
  | current {id : String} {stored : Value} (hnamed : Resubmits disk key content id stored)
      (hhead : (stored.get "expected_ledger_head").bind Value.asStr = ledgerHead epistemic disk)
      (hadmittable : Admittable disk args (compoundKey id stored) stored)

include hs in
/-- The proposals of the events are stored. -/
lemma stored_of_event {r : Record} (hr : r ∈ s.disk.ledger)
    (hid : r.str "proposal_id" = some id) : ∃ stored, s.disk.proposals.get (safeName id) =
      some stored := by
  have hsound : Sound s := hs.invariant sound_invariant
  obtain ⟨before, hbefore⟩ := exists_before hr
  obtain ⟨m, hm⟩ := hsound.minted before r hbefore
  rw [hm.event_eq, str_reread, Record.str, m.get_proposalId] at hid
  obtain rfl := Option.some.inj hid
  exact ⟨m.proposal, hm.proposal_eq⟩

/-- The checks that a submission has passed are those of the review of its proposal. -/
lemma passes_of_stored {disk : Disk} {operations : List Value} (hsafe : safeName id = id)
    (hproposal : disk.proposals.get id = some proposal)
    (hoperations : (content.get "operations").bind Value.asArray = some operations)
    (hget : proposal.get "operations" = some ((content.get "operations").getD .null).reread)
    (hvalid : validateOperations epistemic (operations.map Value.reread) true = .ok ())
    (hreferences : validateReferences epistemic views (operations.map Value.reread) = .ok ()) :
    Passes disk views id proposal := by
  refine ⟨loadProposal_eq_ok.mpr (hsafe.symm ▸ hproposal), _, ?_, hvalid, hreferences⟩
  obtain ⟨v, hv, harray⟩ := Option.bind_eq_some_iff.mp hoperations
  rw [hget, hv, Option.getD_some, Option.bind_some, Value.asArray_reread, harray]
  rfl

include hs in
/-- The compound call behind a submission that finds its proposal. -/
lemma found_iff (hinjective : Function.Injective digestValue) (hlock : s.lock = none)
    (hviews : s.Shows views) (hcontent : semanticContent epistemic args = .ok content)
    {operations : List Value}
    (hoperations : (content.get "operations").bind Value.asArray = some operations)
    (hvalid : validateOperations epistemic (operations.map Value.reread) true = .ok ())
    (hreferences : validateReferences epistemic views (operations.map Value.reread) = .ok ())
    {stored : Value} (hnamed : Resubmits s.disk key content id stored) :
    EndsAdmitted (reviewAndAdmit epistemic views fresh args s.disk
      (proposalReceipt epistemic stored) id).2 ↔ Retryable s.disk fresh args content key := by
  have hsound : Sound s := hs.invariant sound_invariant
  have hstored := hsound.stored _ _ hnamed.stored_eq
  obtain ⟨actor, hactor⟩ := actor_of_semanticContent hcontent
  have hpasses : Passes s.disk views id stored := passes_of_stored hstored.safeName_eq
    hnamed.stored_eq hoperations (hstored.get_operations hinjective hnamed.same) hvalid hreferences
  rw [reviewAndAdmit_iff hs hinjective hlock hviews hpasses hstored hactor
    (describes_receipt stored)]
  have hsame : ∀ {id' stored'}, Resubmits s.disk key content id' stored' →
      id' = id ∧ stored' = stored := by
    intro id' stored' hnamed'
    obtain ⟨name, hname, rfl⟩ := hnamed.named
    obtain ⟨name', hname', rfl⟩ := hnamed'.named
    obtain rfl := Option.some.inj (hname.symm.trans hname')
    exact ⟨rfl, Option.some.inj (hnamed'.stored_eq.symm.trans hnamed.stored_eq)⟩
  constructor
  · rintro (hevent | ⟨hhead, hadmittable⟩)
    · exact .admitted hnamed hevent
    · exact .current hnamed hhead hadmittable
  · rintro (⟨-, hunmarked, -, -⟩ | ⟨hnamed', hevent⟩ | ⟨hnamed', hhead, hadmittable⟩)
    · obtain ⟨name, hname, -⟩ := hnamed.named
      rw [hunmarked] at hname
      cases hname
    · obtain ⟨rfl, rfl⟩ := hsame hnamed'
      exact Or.inl hevent
    · obtain ⟨rfl, rfl⟩ := hsame hnamed'
      exact Or.inr ⟨hhead, hadmittable⟩

include hs in
/-- The compound call behind a submission that writes its proposal. -/
lemma unsubmitted_iff (hinjective : Function.Injective digestValue) (hlock : s.lock = none)
    (hviews : s.Shows views) (hhead : args.get "expected_ledger_head" = none)
    (hcontent : semanticContent epistemic args = .ok content) {operations : List Value}
    (hoperations : (content.get "operations").bind Value.asArray = some operations)
    (hvalid : validateOperations epistemic (operations.map Value.reread) true = .ok ())
    (hreferences : validateReferences epistemic views (operations.map Value.reread) = .ok ())
    (hdraft : draftProposal epistemic (ledgerHead epistemic s.disk) fresh args = .ok draft)
    (hdrafted : Drafted epistemic (ledgerHead epistemic s.disk) fresh args content draft)
    (hunmarked : s.disk.proposalMarkers.get (markerName draft.key) = none)
    {written marked : Disk}
    (hwritten : writeProposal epistemic s.disk draft.proposalId draft.stored = .ok written)
    (hmarked : writeProposalMarker epistemic written draft.key draft.proposalId = .ok marked) :
    EndsAdmitted (reviewAndAdmit epistemic views fresh args marked
      (proposalReceipt epistemic draft.stored) draft.proposalId).2 ↔
        Retryable s.disk fresh args content draft.key := by
  obtain ⟨hfresh, hproposals⟩ := writeProposal_ok hwritten
  obtain ⟨-, hmarkers⟩ := writeProposalMarker_ok hmarked
  have hstored : Stored draft.proposalId draft.stored.reread :=
    ⟨_, _, _, _, draft, hdrafted, rfl, rfl⟩
  have hget : written.proposals.get draft.proposalId = some draft.stored.reread := by
    rw [hproposals]
    exact OrderedMap.get_insert_self _ _ _
  -- The site behind the marker is reachable, with the ledger of the site before.
  have hsubmitted := hs.step (SiteStep.submit s.mem_seen_self hdraft hwritten)
  have hreached := hsubmitted.step
    (SiteStep.mark (Site.mem_seen_write s.mem_seen_self) hdraft hget hmarked)
  have hgetMarked : marked.proposals.get draft.proposalId = some draft.stored.reread := by
    rw [hmarkers]
    exact hget
  have hledger : marked.ledger = s.disk.ledger := by rw [hmarkers, hproposals]
  have hevents : marked.markers = s.disk.markers := by rw [hmarkers, hproposals]
  obtain ⟨actor, hactor⟩ := actor_of_semanticContent hcontent
  have hpasses : Passes marked views draft.proposalId draft.stored.reread := by
    refine passes_of_stored hstored.safeName_eq hgetMarked hoperations ?_ hvalid hreferences
    rw [Value.get_reread, hdrafted.stored_operations]
    rfl
  have hnew : ¬ ∃ r ∈ marked.ledger, r.str "proposal_id" = some draft.proposalId := by
    rintro ⟨r, hr, hid⟩
    rw [hledger] at hr
    obtain ⟨stored, hold⟩ := stored_of_event hs hr hid
    rw [hstored.safeName_eq] at hold
    exact hfresh (Option.isSome_of_eq_some hold)
  have hcurrent : (draft.stored.reread.get "expected_ledger_head").bind Value.asStr =
      ledgerHead epistemic marked := by
    have hsame : ledgerHead epistemic marked = ledgerHead epistemic s.disk := by
      rw [ledgerHead, ledgerHead, hledger]
    rw [Value.get_asStr_reread, hdrafted.stored_head, hhead, hsame]
    exact asStr_optionText _
  have hadmittable : Admittable marked args (compoundKey draft.proposalId draft.stored.reread)
      draft.stored.reread ↔ Admittable s.disk args
        (compoundKey draft.proposalId draft.stored.reread) draft.stored.reread := by
    constructor <;> rintro ⟨hunmarked, hunused, hroom, hverifies, hreads⟩
    · exact ⟨hevents ▸ hunmarked, hledger ▸ hunused, hledger ▸ hroom,
        verifies_congr hledger hverifies, hreads⟩
    · exact ⟨hevents ▸ hunmarked, hledger ▸ hunused, hledger ▸ hroom,
        verifies_congr hledger.symm hverifies, hreads⟩
  have hshows : ((s.write written).write marked).Shows views :=
    (hviews.mono fun _ => Site.mem_seen_write).mono fun _ => Site.mem_seen_write
  have hcall : EndsAdmitted (reviewAndAdmit epistemic views fresh args marked
      (proposalReceipt epistemic draft.stored) draft.proposalId).2 ↔
        (∃ r ∈ marked.ledger, r.str "proposal_id" = some draft.proposalId) ∨
        (draft.stored.reread.get "expected_ledger_head").bind Value.asStr =
            ledgerHead epistemic marked ∧
          Admittable marked args (compoundKey draft.proposalId draft.stored.reread)
            draft.stored.reread :=
    reviewAndAdmit_iff hreached hinjective hlock hshows hpasses hstored hactor
      (describes_receipt_reread hdrafted)
  refine hcall.trans ?_
  rw [or_iff_right hnew, and_iff_right hcurrent, hadmittable]
  constructor
  · exact fun h => .unsubmitted hdraft hunmarked hfresh h
  · rintro (⟨hdraft', -, -, h⟩ | ⟨⟨⟨name, hname, -⟩, -, -⟩, -⟩ | ⟨⟨⟨name, hname, -⟩, -, -⟩, -, -⟩)
    · obtain rfl := Except.ok.inj (hdraft.symm.trans hdraft')
      exact h
    · rw [hunmarked] at hname
      cases hname
    · rw [hunmarked] at hname
      cases hname

include hs in
/-- **The compound call** without a head, whose operations pass the checks, ends admitted
exactly if its content is retryable under its key. -/
theorem submitReviewAdmit_iff (hinjective : Function.Injective digestValue)
    (hlock : s.lock = none) (hviews : views = ⟨s.disk.projection, fun _ => s.disk.projection⟩)
    (hhead : args.get "expected_ledger_head" = none)
    (hcontent : semanticContent epistemic args = .ok content) {operations : List Value}
    (hoperations : (content.get "operations").bind Value.asArray = some operations)
    (hvalid : validateOperations epistemic (operations.map Value.reread) true = .ok ())
    (hreferences : validateReferences epistemic views (operations.map Value.reread) = .ok ()) :
    EndsAdmitted (submitReviewAdmit epistemic views fresh args s.disk).2 ↔
      Retryable s.disk fresh args content (submissionKey epistemic args content) := by
  have hsound : Sound s := hs.invariant sound_invariant
  have hshows : s.Shows views := by
    rw [hviews]
    exact ⟨⟨s.disk, s.mem_seen_self, rfl⟩, fun _ => ⟨s.disk, s.mem_seen_self, rfl⟩⟩
  obtain ⟨draft, hdraft, hdrafted⟩ := exists_draft hcontent (ledgerHead epistemic s.disk) fresh
  rw [submitReviewAdmit, proposalSubmit, hdraft, ← hdrafted.key_eq]
  simp only
  cases hplan : planSubmission epistemic s.disk draft with
  | error failure =>
      refine iff_of_false ?_ ?_
      · rintro ⟨receipt, h, -⟩
        cases h
      · have hneither : ∀ found, planSubmission epistemic s.disk draft ≠ .ok found := by
          simp [hplan]
        rintro (⟨-, hunmarked, -, -⟩ | ⟨hnamed, -⟩ | ⟨hnamed, -, -⟩)
        · exact hneither _ (planSubmission_eq_none.mpr hunmarked)
        · exact hneither _ ((planSubmission_eq_some hdrafted).mpr ⟨_, hnamed⟩)
        · exact hneither _ ((planSubmission_eq_some hdrafted).mpr ⟨_, hnamed⟩)
  | ok found =>
      cases found with
      | some stored =>
          obtain ⟨id, hnamed⟩ := (planSubmission_eq_some hdrafted).mp hplan
          have hid : ((proposalReceipt epistemic stored).get "proposal_id").bind Value.asStr =
              some id := by
            rw [receipt_id, (hsound.stored _ _ hnamed.stored_eq).get_id]
            rfl
          simp only [hid]
          exact found_iff hs hinjective hlock hshows hcontent hoperations hvalid hreferences hnamed
      | none =>
          have hunmarked := planSubmission_eq_none.mp hplan
          by_cases hnew : s.disk.proposals.containsKey draft.proposalId
          · have hfails : writeProposal epistemic s.disk draft.proposalId draft.stored =
                .error (recordExists epistemic) := if_pos hnew
            simp only [hfails]
            refine iff_of_false ?_ ?_
            · rintro ⟨receipt, h, -⟩
              cases h
            · rintro (⟨hdraft', -, hnew', -⟩ | ⟨⟨⟨name, hname, -⟩, -, -⟩, -⟩ |
                ⟨⟨⟨name, hname, -⟩, -, -⟩, -, -⟩)
              · obtain rfl := Except.ok.inj (hdraft.symm.trans hdraft')
                exact hnew' hnew
              · rw [hunmarked] at hname
                cases hname
              · rw [hunmarked] at hname
                cases hname
          · obtain ⟨written, hwritten⟩ : ∃ written,
                writeProposal epistemic s.disk draft.proposalId draft.stored = .ok written := by
              rw [writeProposal, if_neg hnew]
              exact ⟨_, rfl⟩
            obtain ⟨marked, hmarked⟩ : ∃ marked,
                writeProposalMarker epistemic written draft.key draft.proposalId =
                  .ok marked := by
              obtain ⟨-, rfl⟩ := writeProposal_ok hwritten
              rw [writeProposalMarker, if_neg]
              · exact ⟨_, rfl⟩
              · rw [OrderedMap.containsKey, hunmarked]
                exact Bool.false_ne_true
            have hid : ((proposalReceipt epistemic draft.stored).get "proposal_id").bind
                Value.asStr = some draft.proposalId := by
              rw [receipt_id, hdrafted.stored_id]
              rfl
            simp only [hwritten, hmarked, hid]
            exact unsubmitted_iff hs hinjective hlock hshows hhead hcontent hoperations hvalid
              hreferences hdraft hdrafted hunmarked hwritten hmarked

include hs in
/-- **Retries, exactly**: in every reachable site the compound call without a head and without
a key, whose operations pass the checks, ends admitted exactly if the proposal that its derived
key names, if any, has its content, is admitted or expects the current head, and, unless it is
admitted, can be. -/
theorem retry_exact (hinjective : Function.Injective digestValue) (hlock : s.lock = none)
    (hhead : args.get "expected_ledger_head" = none) (hkey : args.get "idempotency_key" = none)
    (hcontent : semanticContent epistemic args = .ok content) {operations : List Value}
    (hoperations : (content.get "operations").bind Value.asArray = some operations)
    (hvalid : validateOperations epistemic (operations.map Value.reread) true = .ok ())
    (hreferences : validateReferences epistemic
      ⟨s.disk.projection, fun _ => s.disk.projection⟩ (operations.map Value.reread) = .ok ()) :
    EndsAdmitted (submitReviewAdmit epistemic ⟨s.disk.projection, fun _ => s.disk.projection⟩
      fresh args s.disk).2 ↔ Retryable s.disk fresh args content
        (derivedIdempotencyKey epistemic.proposalKeyRecipe content) := by
  have hderived : submissionKey epistemic args content =
      derivedIdempotencyKey epistemic.proposalKeyRecipe content := by
    rw [submissionKey, textOr, nonBlank, hkey]
    rfl
  rw [← hderived]
  exact submitReviewAdmit_iff hs hinjective hlock rfl hhead hcontent hoperations hvalid hreferences

end Compound

/-- The operation of `sampleSubmission`. -/
def sampleOperation : Value :=
  .object [("op", .string "entity.declare"), ("entity_id", .string "e"), ("kind", .string "claim"),
    ("title", .string "t")]

/-- What `sampleSubmission` says. -/
def sampleContent : Value :=
  .object [("actor", .string "alice"), ("authority_basis", .null),
    ("operations", .array [sampleOperation])]

lemma semanticContent_sample :
    letI := FloatText.fields
    letI : Digest := ⟨id⟩
    semanticContent epistemic (sampleSubmission []) = .ok sampleContent := by
  rfl

/-- The operation passes the checks of every review. -/
lemma sampleOperation_passes :
    letI := FloatText.fields
    letI : Digest := ⟨id⟩
    letI : FloatRead := ⟨id⟩
    validateOperations epistemic ([sampleOperation].map Value.reread) true = .ok () ∧
      validateReferences epistemic ⟨none, fun _ => none⟩ ([sampleOperation].map Value.reread) =
        .ok () :=
  ⟨rfl, rfl⟩

/-- The first compound call on a site. -/
theorem retry_exact_first :
    letI := FloatText.fields
    letI : Digest := ⟨id⟩
    letI : FloatRead := ⟨id⟩
    EndsAdmitted (submitReviewAdmit epistemic ⟨none, fun _ => none⟩ sampleFresh
      (sampleSubmission []) Site.empty.disk).2 := by
  let _ : FloatText := FloatText.fields
  let _ : Digest := ⟨id⟩
  let _ : FloatRead := ⟨id⟩
  have hinjective : Function.Injective digestValue := fun v w h =>
    Value.text_injective FloatText.fields_lawful h
  obtain ⟨hvalid, hreferences⟩ := sampleOperation_passes
  obtain ⟨draft, hdraft, hdrafted⟩ := exists_draft semanticContent_sample none sampleFresh
  have hempty : (siteMachine epistemic).Reachable .empty := .init rfl
  refine (retry_exact hempty hinjective rfl rfl rfl semanticContent_sample rfl hvalid
    hreferences).mpr (.unsubmitted hdraft rfl Bool.false_ne_true ⟨rfl, ?_, ?_, ⟨[], rfl⟩, ?_⟩)
  · simp [Site.empty]
  · simp [Site.empty]
  · rw [ReadsBack, Value.get_reread, hdrafted.stored_operations]
    exact ⟨rfl, rfl⟩

/-- Other identifiers, at the same time. -/
def laterFresh : Fresh where
  uuid := ⟨"00000000-0000-4000-8000-000000000001", plain_of_all (by decide), by decide⟩
  assertedAt := "t"
  occurredAt := "t"

def latestFresh : Fresh where
  uuid := ⟨"00000000-0000-4000-8000-000000000002", plain_of_all (by decide), by decide⟩
  assertedAt := "t"
  occurredAt := "t"

/-- The declaration of another entity, under a key of its own. -/
def laterSubmission : Map :=
  [("actor", .string "bob"), ("idempotency_key", .string "k"),
    ("operations", .array [.object [("op", .string "entity.declare"), ("entity_id", .string "f"),
      ("kind", .string "claim"), ("title", .string "t")]])]

def laterAdmission : Map :=
  [("proposal_id", .string "ep_00000000-0000-4000-8000-000000000001"), ("actor", .string "bob")]

/-- The files after two submissions. -/
def twiceSubmitted [FloatText] [FloatRead] [Digest] : Disk :=
  (proposalSubmit epistemic laterFresh laterSubmission (sampleSubmitted [])).1

/-- The event of an admission whose client stops behind it. -/
lemma reachable_appended [FloatText] [FloatRead] [Digest] {t : Site}
    (ht : (siteMachine epistemic).Reachable t) (hlock : t.lock = none) {views : Views}
    (hviews : t.Shows views) {fresh : Fresh} {args : Map} {id : String}
    (hid : required epistemic args "proposal_id" = .ok id)
    (happends : appends (planAdmission epistemic t.disk views fresh args)) :
    ∃ s event hash, (siteMachine epistemic).Reachable s ∧ s.lock = none ∧
      s.disk.projection = t.disk.projection ∧ s.disk.proposals = t.disk.proposals ∧
      s.disk.proposalMarkers = t.disk.proposalMarkers ∧
      s.disk.ledger = t.disk.ledger ++ [event] ∧ event.str "proposal_id" = some id ∧
      event.str epistemic.eventHashField = some hash := by
  have hsound : Sound t := ht.invariant sound_invariant
  obtain ⟨id', key, review, event, hplan⟩ := exists_of_appends happends
  obtain ⟨id'', actor, proposal, hnames, ⟨_, _, -, -, -, h⟩ | ⟨_, -, -, h⟩ | h⟩ :=
    planAdmission_ok hplan
  · cases h
  · cases h
  · obtain ⟨_, -, ⟨_, h⟩ | ⟨-, event', hbuild, h⟩⟩ := planAppend_ok h
    · cases h
    · cases h
      obtain ⟨rfl, -⟩ := buildEvent_ok hsound.minted hbuild
      obtain rfl : id = id' := Except.ok.inj (hid.symm.trans hnames.id_eq)
      let m : Minting := ⟨id, proposal, actor, admissionKey epistemic args id proposal, fresh, args⟩
      have happended := ht.step
        (SiteStep.append hlock hviews hplan (writeEvent_next hsound m rfl))
      refine ⟨_, rereadRecord (m.event t.disk.ledger),
        digestValue (.object (m.fields t.disk.ledger)), happended.step SiteStep.release, rfl, rfl,
        rfl, rfl, rfl, ?_, ?_⟩
      · rw [str_reread, Record.str, Minting.get_proposalId]
        rfl
      · rw [str_reread, Record.str, Minting.get_hash]
        rfl

/-- The second proposal can be admitted, which leaves the first one behind. -/
lemma twiceSubmitted_spec :
    letI := FloatText.fields
    letI : Digest := ⟨id⟩
    letI : FloatRead := ⟨id⟩
    appends (planAdmission epistemic twiceSubmitted ⟨none, fun _ => none⟩ laterFresh
        laterAdmission) ∧
      twiceSubmitted.ledger = [] ∧ twiceSubmitted.projection.isNone ∧
      twiceSubmitted.proposals.map (fun e =>
        (e.1, (e.2.get "expected_ledger_head").bind Value.asStr)) =
          [("ep_00000000-0000-4000-8000-000000000000", none),
            ("ep_00000000-0000-4000-8000-000000000001", none)] ∧
      twiceSubmitted.proposalMarkers.get (markerName
        (submissionKey epistemic (sampleSubmission []) sampleContent)) =
          some "ep_00000000-0000-4000-8000-000000000000" := by
  decide +kernel

/-- A submission that has met another admission is refused in all its repetitions. -/
theorem stale_submission_refused :
    letI := FloatText.fields
    letI : Digest := ⟨id⟩
    letI : FloatRead := ⟨id⟩
    ¬ ∀ s, (siteMachine epistemic).Reachable s → s.lock = none → ∀ fresh args content operations,
      args.get "expected_ledger_head" = none → args.get "idempotency_key" = none →
      semanticContent epistemic args = .ok content →
      (content.get "operations").bind Value.asArray = some operations →
      validateOperations epistemic (operations.map Value.reread) true = .ok () →
      validateReferences epistemic ⟨s.disk.projection, fun _ => s.disk.projection⟩
        (operations.map Value.reread) = .ok () →
      EndsAdmitted (submitReviewAdmit epistemic
        ⟨s.disk.projection, fun _ => s.disk.projection⟩ fresh args s.disk).2 := by
  let _ : FloatText := FloatText.fields
  let _ : Digest := ⟨id⟩
  let _ : FloatRead := ⟨id⟩
  have hinjective : Function.Injective digestValue := fun v w h =>
    Value.text_injective FloatText.fields_lawful h
  intro hclaim
  obtain ⟨s, hs, hlock, hviews, hdisk⟩ := reachable_sampleSubmitted []
  obtain ⟨t, ht, hdisk', -⟩ := reachable_proposalSubmit hs hlock
    (Prod.mk.eta (p := proposalSubmit epistemic laterFresh laterSubmission s.disk)).symm
  rw [hdisk] at hdisk'
  have hdisk' : t.disk = twiceSubmitted := hdisk'
  obtain ⟨happends, hempty, hnone, hheads, hname⟩ := twiceSubmitted_spec
  rw [← hdisk'] at happends hempty hnone hheads hname
  obtain ⟨u, event, hash, hu, hlock', hprojection, hproposals, hmarkers, hledger, hid, hhash⟩ :=
    reachable_appended ht.reachable ht.lock (hviews.mono ht.seen) rfl happends
  have hviewed : u.disk.projection = none :=
    hprojection.trans (Option.isNone_iff_eq_none.mp hnone)
  rw [hempty, List.nil_append] at hledger
  rw [← hproposals] at hheads
  rw [← hmarkers] at hname
  obtain ⟨hvalid, hreferences⟩ := sampleOperation_passes
  rw [← hviewed] at hreferences
  have hends := hclaim u hu hlock' latestFresh (sampleSubmission []) sampleContent
    [sampleOperation] rfl rfl semanticContent_sample rfl hvalid hreferences
  rw [submitReviewAdmit_iff hu hinjective hlock' rfl rfl semanticContent_sample rfl hvalid
    hreferences] at hends
  -- The key names the first proposal, which has no event and expects the empty ledger.
  have hnamed : ∀ {id stored}, Resubmits u.disk
      (submissionKey epistemic (sampleSubmission []) sampleContent) sampleContent id stored →
        id = "ep_00000000-0000-4000-8000-000000000000" := by
    rintro _ stored ⟨⟨name, hname', rfl⟩, -, -⟩
    rw [hname, Option.some.injEq] at hname'
    rw [← hname']
    decide
  rcases hends with ⟨-, hunmarked, -, -⟩ | ⟨h, r, hr, hevent⟩ | ⟨h, hhead, -⟩
  · exact Option.some_ne_none _ (hname.symm.trans hunmarked)
  · rw [hledger, List.mem_singleton] at hr
    rw [hr, hid, hnamed h] at hevent
    exact absurd hevent (by decide)
  · have hmem := List.mem_map_of_mem (f := fun e : String × Value =>
      (e.1, (e.2.get "expected_ledger_head").bind Value.asStr))
        (OrderedMap.mem_of_get h.stored_eq)
    rw [hheads, hhead, hnamed h, ledgerHead, hledger] at hmem
    simp [hhash] at hmem

end LedgerDomain

end McpSurfaces
