import McpSurfaces.LedgerDomain.Keys
import McpSurfaces.LedgerDomain.Refold

/-!
When an admission succeeds.

* `Verifies`: the ledger is a numbered chain. A refresh succeeds exactly then
  (`refresh_iff`), and an event keeps it exactly if it is read back as it was written
  (`verifies_append_iff`).
* **`admit_iff`**: the admission of a reviewed proposal at the current head succeeds exactly if
  its key is not in use, the ledger has room and verifies, and the proposal is read back as it
  was written.
-/

namespace McpSurfaces

namespace LedgerDomain

open EventLedger Lists

/-! ### A ledger that verifies -/

section Verifies

variable [FloatText] [Digest]

/-- The events of a ledger verify. -/
def Verifies (disk : Disk) : Prop :=
  ∃ records, verify epistemic.errorSchemaId disk.files epistemic.eventHashField = .ok records

lemma verifies_iff {disk : Disk} :
    Verifies disk ↔ Chained epistemic.eventHashField disk.ledger ∧ Numbered disk.ledger := by
  constructor
  · rintro ⟨records, h⟩
    obtain rfl := records_of_verify h
    exact ⟨verify_chained h, fun i r hr => verify_sequence h hr⟩
  · rintro ⟨hchained, hnumbered⟩
    refine ⟨disk.ledger, verify_of_chained ?_ hchained hnumbered⟩
    rw [Disk.files, List.map_map]
    rfl

/-- The ledger is all that verifies. -/
lemma verifies_congr {disk disk' : Disk} (h : disk.ledger = disk'.ledger) (hdisk : Verifies disk) :
    Verifies disk' := by
  rw [verifies_iff] at hdisk ⊢
  exact h ▸ hdisk

section

omit [FloatText] [Digest]

lemma asStr_optionText (o : Option String) : (optionText o).asStr = o := by cases o <;> rfl

/-- The sequence of one more event. -/
lemma numbered_concat {before : List Record} {r : Record}
    (hr : r.u64 "sequence" = some (before.length + 1)) :
    Numbered (before ++ [r]) ↔ Numbered before := by
  constructor
  · intro h i s hs
    refine h i s ?_
    rw [List.getElem?_append_left (List.getElem?_eq_some_iff.mp hs).1, hs]
  · intro h i s hs
    by_cases hi : i < before.length
    · rw [List.getElem?_append_left hi] at hs
      exact h i s hs
    · rw [List.getElem?_append_right (by omega)] at hs
      obtain ⟨hlast, rfl⟩ := List.getElem?_eq_some_iff.mp hs
      rw [List.length_singleton] at hlast
      obtain rfl : i = before.length := by omega
      simpa using hr

end

variable [FloatRead]

/-- What an event takes over from its proposal and from the call is read back as it is
written. -/
def ReadsBack (proposal : Value) (args : Map) : Prop :=
  ((proposal.get "operations").getD .null).reread = (proposal.get "operations").getD .null ∧
    ((args.get "authority_basis").getD .null).reread = (args.get "authority_basis").getD .null

omit [FloatText] [Digest] in
/-- The fields of an event are read back when those that it takes over are. -/
lemma rereadFields_eq_iff (m : Minting) (before : List Record) {digest : String}
    (hdigest : m.proposal.get "digest" = some (.string digest)) :
    Value.rereadFields (m.fields before) = m.fields before ↔ ReadsBack m.proposal m.args := by
  have hidentity : ∀ actor operation assertedAt : String,
      (identityStateForEvent actor operation assertedAt).reread =
        identityStateForEvent actor operation assertedAt := fun _ _ _ => rfl
  have hnat : ∀ n : ℕ, (Value.ofNat n).reread = .ofNat n := fun _ => rfl
  have htext : ∀ t : String, (Value.string t).reread = .string t := fun _ => rfl
  have hbool : ∀ b : Bool, (Value.bool b).reread = .bool b := fun _ => rfl
  rw [Value.rereadFields_eq, Minting.fields, eventFields, ReadsBack]
  simp only [List.map_cons, List.map_nil, List.cons.injEq, Prod.mk.injEq, true_and, and_true,
    hidentity, hnat, htext, hbool, reread_optionText, hdigest, Option.getD_some]

/-- The hash of an event that is read back. -/
lemma sealed_event_iff (hinjective : Function.Injective digestValue) (m : Minting)
    (before : List Record) {digest : String}
    (hdigest : m.proposal.get "digest" = some (.string digest)) :
    Sealed epistemic.eventHashField (rereadRecord (m.event before)) ↔
      ReadsBack m.proposal m.args := by
  have hnew : OrderedMap.get (m.fields before) epistemic.eventHashField = none := by
    simp [Minting.fields, eventFields, OrderedMap.get_cons, epistemic]
  have hhash : recomputeHash (rereadRecord (m.event before)) epistemic.eventHashField =
      some ⟨digestValue (.object (m.fields before)),
        digestValue (.object (Value.rereadFields (m.fields before)))⟩ :=
    recomputeHash_rereadRecord_withHash _ hnew
  obtain ⟨stored, hstored, hpair⟩ := Option.map_eq_some_iff.mp hhash
  obtain ⟨rfl, hcomputed⟩ := RecomputedHash.mk.inj hpair
  rw [← rereadFields_eq_iff m before hdigest, Sealed, hstored, Option.some.injEq, hcomputed]
  constructor
  · intro h
    exact (Value.object.inj (hinjective h)).symm
  · intro h
    rw [h]

/-- **One more event verifies** where the ledger does and the event is read back. -/
lemma verifies_append_iff (hinjective : Function.Injective digestValue) {disk disk' : Disk}
    (m : Minting) {digest : String} (hdigest : m.proposal.get "digest" = some (.string digest))
    (hroom : disk.ledger.length + 1 < 2 ^ 64)
    (hledger : disk'.ledger = disk.ledger ++ [rereadRecord (m.event disk.ledger)]) :
    Verifies disk' ↔ Verifies disk ∧ ReadsBack m.proposal m.args := by
  have hsequence : (rereadRecord (m.event disk.ledger)).u64 "sequence" =
      some (disk.ledger.length + 1) := by
    rw [Record.u64, get_reread, m.get_sequence]
    exact Value.asU64_ofNat hroom
  have hprevious : (rereadRecord (m.event disk.ledger)).previousHash =
      HashChain.head (fun r : Record => r.str epistemic.eventHashField) none disk.ledger := by
    rw [Record.previousHash, str_reread, Record.str, m.get_previousHash, Option.bind_some,
      asStr_optionText, lastHash, HashChain.head_eq_getLast?]
    cases disk.ledger.getLast? <;> rfl
  have hchained : Chained epistemic.eventHashField disk'.ledger ↔
      Chained epistemic.eventHashField disk.ledger ∧ ReadsBack m.proposal m.args := by
    rw [hledger, Chained, HashChain.linked_append, ← sealed_event_iff hinjective m _ hdigest]
    refine and_congr_right fun _ => ⟨fun h => h.2.1, fun h => ⟨hprevious, h, ?_, trivial⟩⟩
    exact Option.isSome_of_eq_some h
  rw [verifies_iff, verifies_iff, hchained, hledger, numbered_concat hsequence]
  tauto

/-- **A refresh succeeds** in every reachable site whose ledger verifies. -/
lemma refresh_iff (hinjective : Function.Injective digestValue) {s : Site}
    (hs : (siteMachine epistemic).Reachable s) :
    (∃ disk, refresh epistemic s.disk = .ok disk) ↔ Verifies s.disk := by
  constructor
  · rintro ⟨disk, h⟩
    obtain ⟨store, hstore, -⟩ := refresh_ok h
    obtain ⟨records, hverify, -⟩ := bind_eq_ok hstore
    exact ⟨records, hverify⟩
  · rintro ⟨records, hverify⟩
    obtain rfl := records_of_verify hverify
    have hsound : Sound s := hs.invariant sound_invariant
    have hrefoldable : Refoldable s := hs.invariant (refoldable_invariant hinjective)
    obtain ⟨p, hfold, -, -⟩ := foldLedger_ok hrefoldable.events
    have hids : ∀ r ∈ s.disk.ledger, (r.str "event_id").isSome := fun r hr => by
      obtain ⟨before, hbefore⟩ := exists_before hr
      obtain ⟨m, hm⟩ := hsound.minted before r hbefore
      rw [hm.event_eq, str_reread, Record.str, m.get_eventId]
      rfl
    have hprefix : ∀ q, s.disk.projection = some q →
        ∃ front, front <+: s.disk.ledger ∧ foldLedger epistemic front = .ok q := fun q hq => by
      obtain ⟨front, -, -, hfront, hfrontFold⟩ :=
        hrefoldable.projections s.disk s.mem_seen_self q hq
      exact ⟨front, hfront, hfrontFold⟩
    obtain ⟨store, hstore⟩ := rebuild_succeeds (s := ⟨s.disk.files, s.disk.projection⟩) hverify
      hids hprefix ⟨p, hfold⟩
    exact ⟨_, by rw [refresh, hstore]; rfl⟩

end Verifies

/-! ### The admission of a proposal -/

/-- The ids of two events differ with their sequences. -/
lemma sequence_eq_of_newEventId {m n : ℕ} {u v : Uuid}
    (h : newEventId epistemic m u = newEventId epistemic n v) : m = n := by
  have hlist := congrArg String.toList h
  rw [newEventId, newEventId] at hlist
  simp only [String.toList_append] at hlist
  have hlength : u.text.toList.length = v.text.toList.length := by
    rw [String.length_toList, String.length_toList, u.length_eq, v.length_eq]
  have hfront := List.append_inj_left' (List.append_inj_left' hlist hlength) rfl
  have hpadded := List.append_inj_right hfront rfl
  rw [zeroPadded, zeroPadded, String.toList_ofList, String.toList_ofList] at hpadded
  have hvalue := congrArg (Nat.ofDigitChars 10 · 0) hpadded
  simpa only [Decimal.ofDigitChars_padded] using hvalue

section Admission

variable [FloatText] [FloatRead] [Digest]

/-- What the admission of a reviewed proposal under a key asks of the files. -/
structure Admittable (disk : Disk) (args : Map) (key : String) (proposal : Value) : Prop where
  unmarked : disk.markers.get (markerName key) = none
  unused : ∀ r ∈ disk.ledger, r.str "idempotency_key" ≠ some key
  room : disk.ledger.length + 1 < 2 ^ 64
  verifies : Verifies disk
  readsBack : ReadsBack proposal args

/-- The next event has an id of its own. -/
lemma writeEvent_next {s : Site} (h : Sound s) (m : Minting) {disk : Disk}
    (hledger : disk.ledger = s.disk.ledger) :
    writeEvent epistemic disk (m.event s.disk.ledger) =
      .ok { disk with ledger := disk.ledger ++ [rereadRecord (m.event s.disk.ledger)] } := by
  rw [writeEvent, if_neg]
  rw [List.any_eq_true]
  rintro ⟨r, hr, hsame⟩
  rw [hledger] at hr
  obtain ⟨before, hbefore⟩ := exists_before hr
  obtain ⟨m', hm'⟩ := h.minted before r hbefore
  have hids : newEventId epistemic (before.length + 1) m'.fresh.uuid =
      newEventId epistemic (s.disk.ledger.length + 1) m.fresh.uuid := by
    rw [← m'.eventIdOf_event before, ← m.eventIdOf_event s.disk.ledger, ← of_decide_eq_true hsame,
      hm'.event_eq, eventIdOf_reread]
  have hlength := hbefore.length_le
  rw [List.length_append, List.length_singleton] at hlength
  have := sequence_eq_of_newEventId hids
  omega

/-- The next event of a ledger with room is made. -/
lemma buildEvent_next {s : Site} (h : Sound s) (id : String) (proposal : Value)
    (actor key : String) (fresh : Fresh) (args : Map)
    (hroom : s.disk.ledger.length + 1 < 2 ^ 64) :
    buildEvent epistemic s.disk id proposal actor key fresh args =
      .ok (Minting.event ⟨id, proposal, actor, key, fresh, args⟩ s.disk.ledger) := by
  have hcontext : ∃ context, appendContext epistemic s.disk = .ok context := by
    rw [appendContext]
    rcases List.eq_nil_or_concat' s.disk.ledger with hledger | ⟨front, last, hledger⟩
    · rw [hledger]
      exact ⟨_, rfl⟩
    · obtain ⟨m, hm⟩ : Minted s.disk front last := h.minted front last (by rw [hledger])
      have hsequence : last.u64 "sequence" = some (front.length + 1) := by
        rw [Record.u64, hm.event_eq, get_reread, m.get_sequence]
        exact Value.asU64_ofNat hm.sequence_lt
      rw [hledger, List.length_append, List.length_singleton] at hroom
      rw [hledger, List.getLast?_concat]
      simp only [hsequence, if_pos hroom]
      exact ⟨_, rfl⟩
  obtain ⟨context, hcontext⟩ := hcontext
  have hbuild : ∃ event, buildEvent epistemic s.disk id proposal actor key fresh args =
      .ok event := by
    rw [buildEvent, hcontext]
    exact ⟨_, rfl⟩
  obtain ⟨event, hbuild⟩ := hbuild
  rw [hbuild, (buildEvent_ok h.minted hbuild).1]

variable {s : Site} (hs : (siteMachine epistemic).Reachable s) {views : Views} {fresh : Fresh}
  {args : Map} {id actor key : String} {proposal review : Value}

include hs in
/-- **The writes behind the event of an admission succeed** when the ledger verifies and the
event is read back as it was written. -/
lemma commitEvent_iff (hinjective : Function.Injective digestValue) (hlock : s.lock = none)
    (hviews : s.Shows views) (m : Minting) {digest : String}
    (hdigest : m.proposal.get "digest" = some (.string digest))
    (hplan : planAdmission epistemic s.disk views fresh args =
      .ok (.append id key review (m.event s.disk.ledger)))
    (hroom : s.disk.ledger.length + 1 < 2 ^ 64)
    (hunmarked : s.disk.markers.get (markerName key) = none) :
    (∃ receipt, (commitEvent epistemic (s.disk.putReview id review.reread) key
      (m.event s.disk.ledger)).2 = .ok receipt) ↔
        Verifies s.disk ∧ ReadsBack m.proposal m.args := by
  have hsound : Sound s := hs.invariant sound_invariant
  obtain ⟨written, hwrite⟩ : ∃ written, writeEvent epistemic (s.disk.putReview id review.reread)
      (m.event s.disk.ledger) = .ok written := ⟨_, writeEvent_next hsound m rfl⟩
  obtain ⟨-, hwritten⟩ := writeEvent_ok hwrite
  obtain ⟨marked, hmarked⟩ : ∃ marked, writeMarker epistemic written key
      (eventIdOf (m.event s.disk.ledger).value) = .ok marked := by
    have hfree : ¬ written.markers.containsKey (markerName key) := by
      rw [hwritten, OrderedMap.containsKey]
      simp [Disk.putReview, hunmarked]
    rw [writeMarker, if_neg hfree]
    exact ⟨_, rfl⟩
  -- The site behind the marker is reachable, so that a refresh succeeds if it verifies.
  have happended := hs.step (SiteStep.append hlock hviews hplan hwrite)
  have hfinished := happended.step (SiteStep.finish rfl hmarked)
  have hrefresh : (∃ disk, refresh epistemic marked = .ok disk) ↔ Verifies marked :=
    refresh_iff hinjective hfinished
  have hledger : marked.ledger = s.disk.ledger ++ [rereadRecord (m.event s.disk.ledger)] := by
    obtain ⟨-, rfl⟩ := writeMarker_ok hmarked
    rw [hwritten]
    rfl
  rw [← verifies_append_iff hinjective m hdigest hroom hledger, ← hrefresh, commitEvent, hwrite]
  simp only [hmarked]
  cases refresh epistemic marked <;> simp

/-- Behind the lookups of its key an admission of a proposal without an event is at the
review. -/
lemma planAdmission_new {disk : Disk} (hnames : Names epistemic disk args id actor proposal)
    (hnew : ∀ r ∈ disk.ledger, r.str "proposal_id" ≠ some id) {plan : AdmissionPlan}
    (h : planAdmission epistemic disk views fresh args = .ok plan) :
    disk.markers.get (markerName (admissionKey epistemic args id proposal)) = none ∧
      (∀ r ∈ disk.ledger,
        r.str "idempotency_key" ≠ some (admissionKey epistemic args id proposal)) ∧
      planAppend epistemic disk views fresh args id actor (admissionKey epistemic args id proposal)
        proposal = .ok plan := by
  rw [planAdmission] at h
  simp only [hnames.id_eq, hnames.actor_eq, hnames.proposal_eq, bind, Except.bind] at h
  cases hmarker : disk.markers.get (markerName (admissionKey epistemic args id proposal)) with
  | some content =>
      simp only [hmarker] at h
      cases hread : readEvent epistemic disk (Str.trim content) with
      | error failure =>
          rw [hread] at h
          cases h
      | ok event =>
          simp only [hread] at h
          split_ifs at h with his
          exact absurd (str_of_isAdmissionOf his)
            (hnew event (List.mem_of_find?_eq_some (readEvent_eq_ok.mp hread)))
  | none =>
      simp only [hmarker, findByIdempotency_files] at h
      cases hfind : disk.ledger.find? fun r =>
          r.str "idempotency_key" = some (admissionKey epistemic args id proposal) with
      | some event =>
          simp only [hfind] at h
          split_ifs at h with his
          exact absurd (str_of_isAdmissionOf his) (hnew event (List.mem_of_find?_eq_some hfind))
      | none =>
          simp only [hfind] at h
          exact ⟨rfl, fun r hr => by simpa using List.find?_eq_none.mp hfind r hr, h⟩

/-- An admission under a key that is not in use is at the review. -/
lemma planAdmission_unused {disk : Disk} (hnames : Names epistemic disk args id actor proposal)
    (hunmarked : disk.markers.get (markerName (admissionKey epistemic args id proposal)) = none)
    (hunused : ∀ r ∈ disk.ledger,
      r.str "idempotency_key" ≠ some (admissionKey epistemic args id proposal)) :
    planAdmission epistemic disk views fresh args = planAppend epistemic disk views fresh args id
      actor (admissionKey epistemic args id proposal) proposal := by
  have hfind : disk.ledger.find? (fun r =>
      r.str "idempotency_key" = some (admissionKey epistemic args id proposal)) = none :=
    List.find?_eq_none.mpr fun r hr => by simpa using hunused r hr
  rw [planAdmission]
  simp only [hnames.id_eq, hnames.actor_eq, hnames.proposal_eq, bind, Except.bind, hunmarked,
    findByIdempotency_files, hfind]

/-- Behind a review that is valid, at the current head, an admission is at its event. -/
lemma planAppend_valid (hreview : proposalReview epistemic s.disk views id = .ok review)
    (hvalid : review.get "status" = some (.string "policy_valid"))
    (hhead : (resolveExpectedLedgerHead (ledgerHead epistemic s.disk)
      (args.get "expected_ledger_head")).asStr = ledgerHead epistemic s.disk)
    (hexpected : (proposal.get "expected_ledger_head").bind Value.asStr =
      ledgerHead epistemic s.disk) :
    planAppend epistemic s.disk views fresh args id actor key proposal =
      match buildEvent epistemic s.disk id proposal actor key fresh args with
      | .error failure => .ok (.refused id review failure)
      | .ok event => .ok (.append id key review event) := by
  rw [planAppend, hreview]
  cases hbuild : buildEvent epistemic s.disk id proposal actor key fresh args <;>
    simp [bind, Except.bind, hvalid, hhead, hexpected, pure, Except.pure]

include hs in
/-- **The admission of a reviewed proposal** at the current head succeeds exactly if it can be
admitted. -/
theorem admit_iff (hinjective : Function.Injective digestValue) (hlock : s.lock = none)
    (hviews : s.Shows views) (hnames : Names epistemic s.disk args id actor proposal)
    (hreview : proposalReview epistemic s.disk views id = .ok review)
    (hvalid : review.get "status" = some (.string "policy_valid"))
    (hhead : (resolveExpectedLedgerHead (ledgerHead epistemic s.disk)
      (args.get "expected_ledger_head")).asStr = ledgerHead epistemic s.disk)
    (hexpected : (proposal.get "expected_ledger_head").bind Value.asStr =
      ledgerHead epistemic s.disk)
    (hnew : ∀ r ∈ s.disk.ledger, r.str "proposal_id" ≠ some id) :
    (∃ receipt, (proposalAdmitLocked epistemic views fresh args s.disk).2 = .ok receipt) ↔
      Admittable s.disk args (admissionKey epistemic args id proposal) proposal := by
  have hsound : Sound s := hs.invariant sound_invariant
  obtain ⟨digest, hdigest⟩ :=
    (hsound.stored _ _ (loadProposal_eq_ok.mp hnames.proposal_eq)).exists_digest
  let m : Minting := ⟨id, proposal, actor, admissionKey epistemic args id proposal, fresh, args⟩
  have happend : ∀ key, planAppend epistemic s.disk views fresh args id actor key proposal =
      match buildEvent epistemic s.disk id proposal actor key fresh args with
      | .error failure => .ok (.refused id review failure)
      | .ok event => .ok (.append id key review event) := fun _ =>
    planAppend_valid hreview hvalid hhead hexpected
  rw [proposalAdmitLocked]
  constructor
  · rintro ⟨receipt, h⟩
    cases hplan : planAdmission epistemic s.disk views fresh args with
    | error failure =>
        rw [hplan] at h
        cases h
    | ok plan =>
        rw [hplan] at h
        obtain ⟨hunmarked, hunused, hbehind⟩ := planAdmission_new hnames hnew hplan
        rw [happend] at hbehind
        cases hbuild : buildEvent epistemic s.disk id proposal actor
            (admissionKey epistemic args id proposal) fresh args with
        | error failure =>
            rw [hbuild] at hbehind
            cases hbehind
            cases h
        | ok event =>
            rw [hbuild] at hbehind
            cases hbehind
            obtain ⟨rfl, hroom⟩ := buildEvent_ok hsound.minted hbuild
            obtain ⟨hverifies, hreads⟩ := (commitEvent_iff hs hinjective hlock hviews m hdigest
              hplan hroom hunmarked).mp ⟨receipt, h⟩
            exact ⟨hunmarked, hunused, hroom, hverifies, hreads⟩
  · intro h
    have hplan : planAdmission epistemic s.disk views fresh args =
        .ok (.append id (admissionKey epistemic args id proposal) review
          (m.event s.disk.ledger)) := by
      rw [planAdmission_unused hnames h.unmarked h.unused, happend,
        buildEvent_next hsound _ _ _ _ _ _ h.room]
    rw [hplan]
    exact (commitEvent_iff hs hinjective hlock hviews m hdigest hplan h.room h.unmarked).mpr
      ⟨h.verifies, h.readsBack⟩

end Admission

end LedgerDomain

end McpSurfaces
