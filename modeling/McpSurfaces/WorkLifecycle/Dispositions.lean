import McpSurfaces.WorkLifecycle.Steps

/-!
What becomes of the drafts of tickets, whatever calls are made in whatever order.

* `Filed`: drafts and claims have names of their own, and a ticket has one open draft at most.
  **`filed_act`**: so it is behind every act.
* `Lasting`: drafts that are disposed of and claims that are completed stay so.
* `Final`, `Orderly`: an act keeps what is final, and the acts that do: no reconciliation names a
  draft that is disposed of, and no late receipt a claim that is completed.
* **`final_iff_orderly`**: a run keeps what is final exactly when its acts are orderly.
-/

namespace McpSurfaces

namespace WorkLifecycle

open EventLedger (Digest)
open TaskLifecycle (Db)
open Table (row updateWhere)
open Calls (run Each)

/-! ### Drafts and claims -/

/-- What names a draft. -/
def DraftRef.name (d : DraftRef) : String × String := (d.ticketId, d.draftId)

/-- A ticket has one open draft at most. -/
def Single (drafts : List DraftRef) : Prop :=
  ∀ d ∈ drafts, ∀ d' ∈ drafts, d.ticketId = d'.ticketId → d.disposition = none →
    d'.disposition = none → d = d'

/-- Drafts and claims have names of their own. -/
structure Filed (w : WorkDb) : Prop where
  drafts : (w.drafts.map DraftRef.name).Nodup
  single : Single w.drafts
  claims : (w.claims.map EffectClaim.claimId).Nodup

/-- Drafts that are disposed of and claims that are completed stay so. -/
structure Lasting (w w' : WorkDb) : Prop where
  drafts : ∀ d ∈ w.drafts, d.disposition ≠ none → ∃ d' ∈ w'.drafts, d'.name = d.name ∧
    d'.disposition = d.disposition ∧ d'.evidence = d.evidence
  claims : ∀ c ∈ w.claims, c.status = .completed → ∃ c' ∈ w'.claims, c'.claimId = c.claimId ∧
    c'.status = .completed

variable {w w' : WorkDb}

lemma Lasting.refl (w : WorkDb) : Lasting w w :=
  ⟨fun d hd _ => ⟨d, hd, rfl, rfl, rfl⟩, fun c hc h => ⟨c, hc, rfl, h⟩⟩

lemma Filed.of_same (h : Filed w) (hdrafts : w'.drafts = w.drafts)
    (hclaims : w'.claims = w.claims) : Filed w' :=
  ⟨hdrafts ▸ h.drafts, hdrafts ▸ h.single, hclaims ▸ h.claims⟩

lemma lasting_of_same (hdrafts : w'.drafts = w.drafts)
    (hclaims : ∃ more, w'.claims = w.claims ++ more) : Lasting w w' := by
  obtain ⟨more, hclaims⟩ := hclaims
  refine ⟨fun d hd _ => ⟨d, hdrafts ▸ hd, rfl, rfl, rfl⟩, fun c hc hcompleted => ?_⟩
  exact ⟨c, hclaims ▸ List.mem_append_left _ hc, rfl, hcompleted⟩

lemma Lasting.of_same {w'' : WorkDb} (h : Lasting w w')
    (hsame : w''.drafts = w'.drafts ∧ w''.claims = w'.claims) : Lasting w w'' :=
  ⟨hsame.1 ▸ h.drafts, hsame.2 ▸ h.claims⟩

/-- A ticket has one open draft at most. -/
lemma Filed.length_openDrafts (h : Filed w) (ticketId : String) :
    (w.openDrafts ticketId).length ≤ 1 := by
  have hnodup : (w.openDrafts ticketId).Nodup := h.drafts.of_map.filter _
  by_contra hmany
  obtain ⟨d, d', rest, hlist⟩ : ∃ d d' rest, w.openDrafts ticketId = d :: d' :: rest := by
    match hopen : w.openDrafts ticketId with
    | [] => simp [hopen] at hmany
    | [d] => simp [hopen] at hmany
    | d :: d' :: rest => exact ⟨d, d', rest, rfl⟩
  have hd : d ∈ w.openDrafts ticketId := hlist ▸ List.mem_cons_self
  have hd' : d' ∈ w.openDrafts ticketId := hlist ▸ List.mem_cons_of_mem _ List.mem_cons_self
  obtain ⟨hmem, hopen⟩ := List.mem_filter.mp hd
  obtain ⟨hmem', hopen'⟩ := List.mem_filter.mp hd'
  obtain ⟨hticket, hnone⟩ := of_decide_eq_true hopen
  obtain ⟨hticket', hnone'⟩ := of_decide_eq_true hopen'
  rw [hlist] at hnodup
  refine (List.pairwise_cons.mp hnodup).1 d' List.mem_cons_self ?_
  exact h.single d hmem d' hmem' (hticket.trans hticket'.symm) hnone hnone'

/-! ### Drafts that give way -/

/-- Where the other drafts of a ticket give way to one, no other is open. -/
lemma single_supersede {drafts : List DraftRef} {ticketId draftId : String}
    {evidence : DispositionEvidence} {now : String} (hnames : (drafts.map DraftRef.name).Nodup)
    (hothers : ∀ d ∈ drafts, ∀ d' ∈ drafts, d.ticketId ≠ ticketId → d.ticketId = d'.ticketId →
      d.disposition = none → d'.disposition = none → d = d') :
    Single (updateWhere (Supersedes ticketId draftId) (.disposed .superseded evidence now)
      drafts) := by
  -- a draft that is open behind it was open before, and did not have to give way
  have hkept {d : DraftRef} (hd : d ∈ updateWhere (Supersedes ticketId draftId)
      (.disposed .superseded evidence now) drafts) (hopen : d.disposition = none) :
      d ∈ drafts ∧ ¬ Supersedes ticketId draftId d := by
    obtain ⟨before, hbefore, hd⟩ := Table.mem_updateWhere.mp hd
    split at hd
    · rw [← hd] at hopen
      cases hopen
    · next hstays =>
        rw [← hd]
        exact ⟨hbefore, hstays⟩
  intro d hd d' hd' hsame hopen hopen'
  obtain ⟨hmem, hstays⟩ := hkept hd hopen
  obtain ⟨hmem', hstays'⟩ := hkept hd' hopen'
  by_cases hticket : d.ticketId = ticketId
  · have hdraft : d.draftId = draftId := by
      by_contra hne
      exact hstays ⟨hticket, hne, hopen⟩
    have hdraft' : d'.draftId = draftId := by
      by_contra hne
      exact hstays' ⟨hsame ▸ hticket, hne, hopen'⟩
    refine List.inj_on_of_nodup_map hnames hmem hmem' ?_
    rw [DraftRef.name, DraftRef.name, hsame, hdraft, hdraft']
  · exact hothers d hmem d' hmem' hticket hsame hopen hopen'

/-- An update that leaves the names and opens nothing. -/
lemma Single.updateWhere {drafts : List DraftRef} (h : Single drafts) {p : DraftRef → Prop}
    [DecidablePred p] {set : DraftRef → DraftRef} (hticket : ∀ d, (set d).ticketId = d.ticketId)
    (hopen : ∀ d, p d → (set d).disposition = none → d.disposition = none) :
    Single (Table.updateWhere p set drafts) := by
  intro d hd d' hd' hsame hnone hnone'
  obtain ⟨before, hbefore, rfl⟩ := Table.mem_updateWhere.mp hd
  obtain ⟨before', hbefore', rfl⟩ := Table.mem_updateWhere.mp hd'
  have hboth : before = before' := by
    refine h before hbefore before' hbefore' ?_ ?_ ?_
    · split at hsame <;> split at hsame <;> simpa only [hticket] using hsame
    · split at hnone
      · exact hopen before ‹_› hnone
      · exact hnone
    · split at hnone'
      · exact hopen before' ‹_› hnone'
      · exact hnone'
  rw [hboth]

/-! ### What calls do to drafts and claims -/

section Calls

variable [FloatText] [Digest]

lemma Concluded.papers {t : Ticket} {n : EventNote} (h : Concluded w t n w') :
    w'.drafts = w.drafts ∧ w'.claims = w.claims := by
  obtain ⟨o, -, rfl⟩ := h.behind
  exact ⟨rfl, rfl⟩

omit [FloatText] [Digest] in
lemma Quiet.papers (h : Quiet w w') : w'.drafts = w.drafts ∧ w'.claims = w.claims :=
  ⟨h.drafts, h.claims⟩

/-- An admission of a source leaves the drafts and the claims. -/
lemma papers_admitSource {env : WorkEnv} {args v : Value}
    (h : admitSource env args w = .ok (w', v)) : w'.drafts = w.drafts ∧ w'.claims = w.claims := by
  obtain ⟨r, -, hquiet | ⟨-, -, hassociate⟩⟩ := admitSource_cases h
  · exact hquiet.papers
  · obtain ⟨w₁, found, rows, ticket, hfound, -, -, -, -, -, hconcluded, -⟩ :=
      associate_ok hassociate
    rcases ticketFor_ok hfound with ⟨-, -, -, rfl⟩ | ⟨t, -, -, -, rfl⟩ <;>
      exact hconcluded.papers

omit [FloatText] [Digest] in
/-- Writes to the table of tasks leave the drafts and the claims. -/
lemma taskKept_papers (drafts : List DraftRef) (claims : List EffectClaim) :
    TaskKept fun w => w.drafts = drafts ∧ w.claims = claims where
  update w taskId ofStatus set hset h := by
    have hframed : Framed w (w.updateTask taskId ofStatus set) :=
      w.framed_updateTask hset.taskId ofStatus
    rw [hframed.drafts, hframed.claims]
    exact h
  insert w new _ _ _ _ h := by
    obtain ⟨events, rows, hinsert⟩ := WorkDb.insertTask_eq w new
    rw [hinsert]
    exact h
  tables _ _ h := h

/-- A proposal leaves the drafts, and may add a claim. -/
lemma papers_admitProposal {env : WorkEnv} {args v : Value}
    (h : admitProposal env args w = .ok (w', v)) :
    w'.drafts = w.drafts ∧ (w'.claims = w.claims ∨
      ∃ c, w'.claims = w.claims ++ [c] ∧ ∀ old ∈ w.claims, old.claimId ≠ c.claimId) := by
  obtain ⟨r, -, rfl | ⟨before, body, m, t, n, -, -, hleads, -, -, hconcluded⟩⟩ :=
    admitProposal_cases h
  · exact ⟨rfl, .inl rfl⟩
  · obtain ⟨hdrafts, hclaims⟩ := hconcluded.papers
    rw [hdrafts, hclaims]
    cases hleads with
    | @followup task hid hnumber hlink =>
        obtain ⟨hdrafts, hclaims⟩ : (writeFollowup env r task w).drafts = w.drafts ∧
            (writeFollowup env r task w).claims = w.claims :=
          (taskKept_papers _ _).followup hid hnumber ⟨rfl, rfl⟩
        exact ⟨hdrafts, .inl hclaims⟩
    | @draft draft hclaim => exact ⟨rfl, .inr ⟨draft.claim r (env.now 0), rfl, hclaim⟩⟩
    | again => exact ⟨rfl, .inl rfl⟩
    | resolved => exact ⟨rfl, .inl rfl⟩
    | blocked => exact ⟨rfl, .inl rfl⟩

section

omit [FloatText] [Digest]

lemma Filed.supersedeClaim (h : Filed w) (claimId : String) : Filed (w.supersedeClaim claimId) where
  drafts := h.drafts
  single := h.single
  claims := by
    have hkeys : (w.supersedeClaim claimId).claims.map EffectClaim.claimId =
        w.claims.map EffectClaim.claimId := Table.keys_updateWhere fun _ _ => rfl
    exact hkeys ▸ h.claims

/-- A claim that gives way was not completed. -/
lemma Filed.lasting_supersedeClaim (h : Filed w) {claimId ticketId : String} {claim : EffectClaim}
    (hfound : w.claim claimId ticketId = some claim) (hopen : claim.status ≠ .completed) :
    Lasting w (w.supersedeClaim claimId) := by
  refine ⟨fun d hd _ => ⟨d, hd, rfl, rfl, rfl⟩, fun c hc hcompleted => ?_⟩
  refine ⟨_, Table.mem_updateWhere.mpr ⟨c, hc, rfl⟩, ?_⟩
  split
  · next hid =>
      obtain ⟨hclaim, -⟩ : claim.claimId = claimId ∧ claim.ticketId = ticketId := by
        simpa using List.find?_some hfound
      have hsame : c = claim :=
        List.inj_on_of_nodup_map h.claims hc (List.mem_of_find?_eq_some hfound)
          (hid.trans hclaim.symm)
      exact absurd (hsame ▸ hcompleted) hopen
  · exact ⟨rfl, hcompleted⟩

/-- The drafts of an accepted receipt before the others give way. -/
lemma names_upsertDraft (h : (w.drafts.map DraftRef.name).Nodup) (new : DraftRef) :
    ((w.upsertDraft new).drafts.map DraftRef.name).Nodup := by
  rw [WorkDb.upsertDraft]
  split
  · have hkeys : (updateWhere (fun d => d.ticketId = new.ticketId ∧ d.draftId = new.draftId)
        (fun d => { d with draftRef := new.draftRef, receiptId := new.receiptId }) w.drafts).map
          DraftRef.name = w.drafts.map DraftRef.name := Table.keys_updateWhere fun _ _ => rfl
    exact hkeys ▸ h
  · next hnone =>
      refine Table.nodup_append_singleton h (Table.row_eq_none_iff.mpr fun hmem => ?_)
      obtain ⟨d, hd, hname⟩ := List.mem_map.mp hmem
      obtain ⟨hticket, hdraft⟩ := Prod.mk.inj hname
      refine hnone (List.find?_isSome.mpr ⟨d, hd, ?_⟩)
      simpa using ⟨hticket, hdraft⟩

lemma mem_of_upsertDraft {new d : DraftRef} (hd : d ∈ (w.upsertDraft new).drafts)
    (hticket : d.ticketId ≠ new.ticketId) : d ∈ w.drafts := by
  rw [WorkDb.upsertDraft] at hd
  split at hd
  · obtain ⟨before, hbefore, rfl⟩ := Table.mem_updateWhere.mp hd
    split at hticket
    · next hname => exact absurd hname.1 hticket
    · next hname => rwa [if_neg hname]
  · rcases List.mem_append.mp hd with hd | hd
    · exact hd
    · rw [List.mem_singleton.mp hd] at hticket
      exact absurd rfl hticket

/-- A draft that is disposed of stays so, whatever receipt names it. -/
lemma exists_upsertDraft {d : DraftRef} (hd : d ∈ w.drafts) (new : DraftRef) :
    ∃ d' ∈ (w.upsertDraft new).drafts, d'.name = d.name ∧ d'.disposition = d.disposition ∧
      d'.evidence = d.evidence := by
  rw [WorkDb.upsertDraft]
  split
  · refine ⟨_, Table.mem_updateWhere.mpr ⟨d, hd, rfl⟩, ?_⟩
    split <;> exact ⟨rfl, rfl, rfl⟩
  · exact ⟨d, List.mem_append_left _ hd, rfl, rfl, rfl⟩

end

/-- An accepted receipt leaves one open draft at most. -/
lemma Filed.received (h : Filed w) (r : ReceiptRequest) (now : String) :
    Filed (r.received now w) where
  drafts := by
    have hkeys : (r.received now w).drafts.map DraftRef.name =
        ((w.completeClaim r now).upsertDraft (r.draft now)).drafts.map DraftRef.name :=
      Table.keys_updateWhere fun _ _ => rfl
    have hnames : ((w.completeClaim r now).drafts.map DraftRef.name).Nodup := h.drafts
    exact hkeys ▸ names_upsertDraft hnames (r.draft now)
  single := by
    have hnames : ((w.completeClaim r now).drafts.map DraftRef.name).Nodup := h.drafts
    refine single_supersede (names_upsertDraft hnames (r.draft now)) ?_
    have hmem {d : DraftRef} (hticket : d.ticketId ≠ r.ticketId)
        (hd : d ∈ ((w.completeClaim r now).upsertDraft (r.draft now)).drafts) :
        d ∈ (w.completeClaim r now).drafts := mem_of_upsertDraft hd hticket
    intro d hd d' hd' hticket hsame
    exact h.single d (hmem hticket hd) d' (hmem (hsame ▸ hticket) hd') hsame
  claims := by
    have hkeys : (r.received now w).claims.map EffectClaim.claimId =
        w.claims.map EffectClaim.claimId := by
      rw [received_eq]
      exact Table.keys_updateWhere fun _ _ => rfl
    exact hkeys ▸ h.claims

lemma lasting_received (r : ReceiptRequest) (now : String) : Lasting w (r.received now w) where
  drafts d hd hdisposed := by
    have hmem : d ∈ (w.completeClaim r now).drafts := hd
    obtain ⟨d', hd', hname, hdisposition, hevidence⟩ := exists_upsertDraft hmem (r.draft now)
    refine ⟨_, Table.mem_updateWhere.mpr ⟨d', hd', rfl⟩, ?_⟩
    rw [if_neg fun hgives => hdisposed (hdisposition ▸ hgives.2.2)]
    exact ⟨hname, hdisposition, hevidence⟩
  claims c hc hcompleted := by
    have hstays : ¬ (c.claimId = r.claimId ∧ c.status = .claimed) := by
      rw [hcompleted]
      exact fun hboth => nomatch hboth.2
    rw [received_eq]
    exact ⟨_, Table.mem_updateWhere.mpr ⟨c, hc, if_neg hstays⟩, rfl, hcompleted⟩

omit [Digest] in
/-- A reconciliation opens no draft. -/
lemma Filed.dispose (h : Filed w) (r : ReconcileRequest) (now : String) :
    Filed (r.dispose now w) := by
  obtain ⟨others, hwhich, hdispose⟩ := r.exists_others now w
  have hothers : Filed others := by
    rcases hwhich with rfl | rfl
    · have hkeys : (w.supersede r.ticketId r.draftId r.supersession now).drafts.map DraftRef.name =
          w.drafts.map DraftRef.name := Table.keys_updateWhere fun _ _ => rfl
      refine ⟨hkeys ▸ h.drafts, h.single.updateWhere (fun _ => rfl) fun _ _ hnone => ?_, h.claims⟩
      cases hnone
    · exact h
  rw [hdispose]
  refine ⟨?_, hothers.single.updateWhere (fun _ => rfl) fun _ _ hnone => ?_, hothers.claims⟩
  · have hkeys : (updateWhere (fun d => d.ticketId = r.ticketId ∧ d.draftId = r.draftId)
        (DraftRef.disposed r.evidence.observed.disposition r.disposition now) others.drafts).map
        DraftRef.name = others.drafts.map DraftRef.name := Table.keys_updateWhere fun _ _ => rfl
    exact hkeys ▸ hothers.drafts
  · cases hnone

omit [Digest] in
/-- A reconciliation that names an open draft leaves those that are disposed of. -/
lemma Filed.lasting_dispose (h : Filed w) {r : ReconcileRequest} (now : String)
    (hopen : ∀ d, w.draft r.ticketId r.draftId = some d → d.disposition = none) :
    Lasting w (r.dispose now w) where
  drafts d hd hdisposed := by
    have hother : ¬ (d.ticketId = r.ticketId ∧ d.draftId = r.draftId) := by
      rintro ⟨hticket, hdraft⟩
      have hname : ∀ d' ∈ w.drafts, d'.name = d.name → d' = d := fun d' hd' hname =>
        List.inj_on_of_nodup_map h.drafts hd' hd hname
      cases hfound : w.draft r.ticketId r.draftId with
      | none =>
          have hnone := List.find?_eq_none.mp hfound d hd
          simp [hticket, hdraft] at hnone
      | some d' =>
          obtain ⟨hticket', hdraft'⟩ : d'.ticketId = r.ticketId ∧ d'.draftId = r.draftId := by
            simpa using List.find?_some hfound
          have hsame := hname d' (List.mem_of_find?_eq_some hfound) (by
            rw [DraftRef.name, DraftRef.name, hticket, hdraft, hticket', hdraft'])
          exact hdisposed (hsame ▸ hopen d' hfound)
    obtain ⟨others, hwhich, hdispose⟩ := r.exists_others now w
    have hkept : d ∈ others.drafts := by
      rcases hwhich with rfl | rfl
      · exact Table.mem_updateWhere.mpr ⟨d, hd, if_neg fun hgives => hdisposed hgives.2.2⟩
      · exact hd
    rw [hdispose]
    exact ⟨d, Table.mem_updateWhere.mpr ⟨d, hkept, if_neg hother⟩, rfl, rfl, rfl⟩
  claims c hc hcompleted := by
    rw [dispose_eq]
    exact ⟨c, hc, rfl, hcompleted⟩

end Calls

/-! ### What is final -/

section Runs

variable [FloatText] [TouchClock] [Digest]

omit [TouchClock] in
/-- Every call on tickets leaves one open draft at most to a ticket. -/
lemma Filed.apply (h : Filed w) (call : TicketCall) : Filed (call.apply w) := by
  unfold TicketCall.apply
  cases htransact : call.transact w with
  | error e => exact h
  | ok behind =>
      obtain ⟨w', v⟩ := behind
      have hquiet (hq : Quiet w w') : Filed w' := h.of_same hq.drafts hq.claims
      cases call with
      | admitSource env args =>
          obtain ⟨hdrafts, hclaims⟩ := papers_admitSource htransact
          exact h.of_same hdrafts hclaims
      | admitProposal env args =>
          obtain ⟨hdrafts, hclaims | ⟨c, hclaims, hnew⟩⟩ := papers_admitProposal htransact
          · exact h.of_same hdrafts hclaims
          · refine ⟨hdrafts ▸ h.drafts, hdrafts ▸ h.single, hclaims ▸ ?_⟩
            refine Table.nodup_append_singleton h.claims (Table.row_eq_none_iff.mpr fun hmem => ?_)
            obtain ⟨old, hold, hid⟩ := List.mem_map.mp hmem
            exact hnew old hold hid
      | recordDraftReceipt env args =>
          obtain ⟨r, -, ⟨-, rfl⟩ | ⟨claim, t, n, -, -, ⟨-, -, hconcluded⟩ | ⟨-, -, hconcluded⟩⟩⟩ :=
            recordDraftReceipt_cases htransact
          · exact h
          · obtain ⟨hdrafts, hclaims⟩ := hconcluded.papers
            exact (h.supersedeClaim r.claimId).of_same hdrafts hclaims
          · obtain ⟨hdrafts, hclaims⟩ := hconcluded.papers
            exact (h.received r (env.now 0)).of_same hdrafts hclaims
      | reconcileDraft env args =>
          obtain ⟨r, -, ⟨-, rfl⟩ | ⟨-, t, n, -, -, hconcluded⟩⟩ := reconcileDraft_cases htransact
          · exact h
          · obtain ⟨hdrafts, hclaims⟩ := hconcluded.papers
            exact (h.dispose r (env.now 0)).of_same hdrafts hclaims
      | processingContext env args => exact hquiet (quiet_of_idle htransact trivial)
      | outboxRegister args => exact hquiet (quiet_of_idle htransact trivial)
      | outboxAck env args => exact hquiet (quiet_of_idle htransact trivial)
      | outboxCompact env isTime args => exact hquiet (quiet_of_idle htransact trivial)

/-- **Every act leaves one open draft at most** to a ticket. -/
theorem filed_act {c : Servers} (a : Servers.Act) (h : Filed c.state) : Filed (c.act a).state := by
  have hkept : TaskKept Filed :=
    { update := fun w taskId ofStatus set hset hw =>
        have hframed := w.framed_updateTask hset.taskId ofStatus
        hw.of_same hframed.drafts hframed.claims
      insert := fun w new _ _ _ _ hw => by
        obtain ⟨events, rows, hinsert⟩ := WorkDb.insertTask_eq w new
        rw [hinsert]
        exact hw.of_same rfl rfl
      tables := fun w db hw => hw.of_same rfl rfl }
  exact hkept.act (fun call _ => h.apply call) h

/-- The act of a reconciliation. -/
def reconciling (env : WorkEnv) (args : Value) : Servers.Act :=
  .edit (.ticket (.reconcileDraft env args))

/-- The act of a receipt. -/
def receiving (env : WorkEnv) (args : Value) : Servers.Act :=
  .edit (.ticket (.recordDraftReceipt env args))

/-- What a reconciliation must leave that names a draft which is disposed of: the status and the
revision of the ticket, and all other drafts. -/
def Unmoved (c : Servers) (a : Servers.Act) : Prop :=
  ∀ env args r d, a = reconciling env args → reconcileRequest args = .ok r →
    c.state.draft r.ticketId r.draftId = some d → d.disposition ≠ none →
      ((c.act a).state.ticket r.ticketId).map (fun t => (t.status, t.revision)) =
          (c.state.ticket r.ticketId).map (fun t => (t.status, t.revision)) ∧
        ((c.act a).state.drafts.filter fun d => d.name ≠ (r.ticketId, r.draftId)) =
          c.state.drafts.filter fun d => d.name ≠ (r.ticketId, r.draftId)

/-- An act keeps what is final. -/
structure Final (c : Servers) (a : Servers.Act) : Prop where
  single : ∀ ticketId, ((c.act a).state.openDrafts ticketId).length ≤ 1
  lasting : Lasting c.state (c.act a).state
  unmoved : Unmoved c a

/-- No reconciliation that goes through names a draft that is disposed of, and no late receipt that
goes through names a claim that is completed. -/
structure Orderly (c : Servers) (a : Servers.Act) : Prop where
  reconcile : ∀ env args r d, a = reconciling env args → reconcileRequest args = .ok r →
    r.Passes env c.state → c.state.draft r.ticketId r.draftId = some d → d.disposition = none
  receive : ∀ env args r claim, a = receiving env args → receiptRequest args = .ok r →
    r.Late env c.state → c.state.claim r.claimId r.ticketId = some claim →
      claim.status ≠ .completed

/-- An orderly act keeps what is disposed of and completed. -/
lemma lasting_of_orderly {c : Servers} {a : Servers.Act} (h : Filed c.state) (ha : Orderly c a) :
    Lasting c.state (c.act a).state := by
  have hkept : TaskKept fun w => w.drafts = c.state.drafts ∧ w.claims = c.state.claims :=
    taskKept_papers _ _
  by_cases hcall : ∃ call, a = .edit (.ticket call)
  · obtain ⟨call, rfl⟩ := hcall
    show Lasting c.state (call.apply c.state)
    unfold TicketCall.apply
    cases htransact : call.transact c.state with
    | error e => exact .refl _
    | ok behind =>
        obtain ⟨w', v⟩ := behind
        have hquiet (hq : Quiet c.state w') : Lasting c.state w' :=
          lasting_of_same hq.drafts ⟨[], by rw [hq.claims, List.append_nil]⟩
        cases call with
        | admitSource env args =>
            obtain ⟨hdrafts, hclaims⟩ := papers_admitSource htransact
            exact lasting_of_same hdrafts ⟨[], by rw [hclaims, List.append_nil]⟩
        | admitProposal env args =>
            obtain ⟨hdrafts, hclaims | ⟨claim, hclaims, -⟩⟩ := papers_admitProposal htransact
            · exact lasting_of_same hdrafts ⟨[], by rw [hclaims, List.append_nil]⟩
            · exact lasting_of_same hdrafts ⟨[claim], hclaims⟩
        | recordDraftReceipt env args =>
            obtain ⟨r, hr, ⟨-, rfl⟩ | ⟨claim, t, n, hmeets, -, ⟨-, hlate, hconcluded⟩ |
              ⟨-, -, hconcluded⟩⟩⟩ := recordDraftReceipt_cases htransact
            · exact .refl _
            · have hopen := ha.receive env args r claim rfl hr hlate hmeets.found
              exact (h.lasting_supersedeClaim hmeets.found hopen).of_same hconcluded.papers
            · exact (lasting_received r (env.now 0)).of_same hconcluded.papers
        | reconcileDraft env args =>
            obtain ⟨r, hr, ⟨-, rfl⟩ | ⟨hpasses, t, n, -, -, hconcluded⟩⟩ :=
              reconcileDraft_cases htransact
            · exact .refl _
            · have hopen := fun d => ha.reconcile env args r d rfl hr hpasses
              exact (h.lasting_dispose (env.now 0) hopen).of_same hconcluded.papers
        | processingContext env args => exact hquiet (quiet_of_idle htransact trivial)
        | outboxRegister args => exact hquiet (quiet_of_idle htransact trivial)
        | outboxAck env args => exact hquiet (quiet_of_idle htransact trivial)
        | outboxCompact env isTime args => exact hquiet (quiet_of_idle htransact trivial)
  · obtain ⟨hdrafts, hclaims⟩ := hkept.act (a := a)
      (fun call ha => absurd ⟨call, ha⟩ hcall) ⟨rfl, rfl⟩
    exact lasting_of_same hdrafts ⟨[], by rw [hclaims, List.append_nil]⟩

/-- A reconciliation that does not go through changes nothing. -/
lemma state_reconciling {c : Servers} {env : WorkEnv} {args : Value} {r : ReconcileRequest}
    (hr : reconcileRequest args = .ok r) (hpasses : ¬ r.Passes env c.state) :
    (c.act (reconciling env args)).state = c.state := by
  show TicketCall.apply _ c.state = c.state
  unfold TicketCall.apply
  cases htransact : TicketCall.transact (.reconcileDraft env args) c.state with
  | error e => rfl
  | ok behind =>
      obtain ⟨w', v⟩ := behind
      obtain ⟨r', hr', ⟨-, rfl⟩ | ⟨hpasses', -⟩⟩ := reconcileDraft_cases htransact
      · rfl
      · rw [hr] at hr'
        cases hr'
        exact absurd hpasses' hpasses

/-- Orderly acts keep what is final. -/
lemma final_of_orderly {c : Servers} {a : Servers.Act} (h : Filed c.state) (ha : Orderly c a) :
    Final c a where
  single := (filed_act a h).length_openDrafts
  lasting := lasting_of_orderly h ha
  unmoved := by
    rintro env args r d rfl hr hdraft hdisposed
    have hpasses : ¬ r.Passes env c.state := fun hpasses =>
      hdisposed (ha.reconcile env args r d rfl hr hpasses hdraft)
    rw [state_reconciling hr hpasses]
    exact ⟨rfl, rfl⟩

omit [TouchClock] in
/-- A reconciliation that goes through moves its ticket. -/
lemma ticket_reconciled {env : WorkEnv} {args v : Value} {r : ReconcileRequest}
    (hr : reconcileRequest args = .ok r) (hpasses : r.Passes env w)
    (h : reconcileDraft env args w = .ok (w', v)) :
    ∃ t t', w.ticket r.ticketId = some t ∧ w'.ticket r.ticketId = some t' ∧
      t'.revision = t.revision + 1 := by
  obtain ⟨r', hr', ⟨hstored, -⟩ | ⟨-, t, n, ht, -, hconcluded⟩⟩ := reconcileDraft_cases h
  · rw [hr] at hr'
    cases hr'
    exact absurd hpasses.1 hstored
  · rw [hr] at hr'
    cases hr'
    refine ⟨t, r.moved env t, ht, ?_, rfl⟩
    obtain ⟨o, -, rfl⟩ := hconcluded.behind
    show ((r.dispose (env.now 0) w).updateTicket r.ticketId _).ticket r.ticketId = _
    rw [ticket_moved, dispose_eq]
    show Option.map _ (w.ticket r.ticketId) = _
    rw [ht, Option.map_some, if_pos (Table.key_of_row ht)]
    rfl

/-- Acts that keep what is final are orderly. -/
lemma orderly_of_final {c : Servers} {a : Servers.Act} (h : Final c a) : Orderly c a where
  reconcile := by
    rintro env args r d rfl hr hpasses hdraft
    by_contra hdisposed
    obtain ⟨hticket, -⟩ := h.unmoved env args r d rfl hr hdraft hdisposed
    obtain ⟨⟨w', v⟩, htransact⟩ := reconcileDraft_ok hr hpasses
    have hbehind : (c.act (reconciling env args)).state = w' := by
      show TicketCall.apply _ c.state = w'
      rw [TicketCall.apply, TicketCall.transact, htransact]
    obtain ⟨t, t', ht, ht', hrevision⟩ := ticket_reconciled hr hpasses htransact
    rw [hbehind, ht, ht', Option.map_some, Option.map_some] at hticket
    have hsame : t'.revision = t.revision := (Prod.mk.inj (Option.some.inj hticket)).2
    omega
  receive := by
    rintro env args r claim rfl hr hlate hfound hcompleted
    obtain ⟨⟨w', v⟩, htransact⟩ := recordDraftReceipt_ok hr (.inl hlate)
    have hbehind : (c.act (receiving env args)).state = w' := by
      show TicketCall.apply _ c.state = w'
      rw [TicketCall.apply, TicketCall.transact, htransact]
    obtain ⟨claim', t', hmeets', hrevision', -⟩ := hlate
    obtain ⟨r', hr', ⟨hstored, -⟩ | ⟨claim'', t, n, hmeets, -, ⟨-, -, hconcluded⟩ |
      ⟨hrevision, -⟩⟩⟩ := recordDraftReceipt_cases htransact
    all_goals
      rw [hr] at hr'
      cases hr'
    · exact hstored hmeets'.unrecorded
    · obtain ⟨-, hclaims⟩ := hconcluded.papers
      obtain ⟨hid, -⟩ : claim.claimId = r.claimId ∧ claim.ticketId = r.ticketId := by
        simpa using List.find?_some hfound
      obtain ⟨c', hc', hid', hcompleted'⟩ :=
        h.lasting.claims claim (List.mem_of_find?_eq_some hfound) hcompleted
      rw [hbehind, hclaims] at hc'
      obtain ⟨before, -, rfl⟩ := Table.mem_updateWhere.mp hc'
      have hgiven : before.claimId = r.claimId := by
        split at hid' <;> exact hid'.trans hid
      rw [if_pos hgiven] at hcompleted'
      cases hcompleted'
    · have hclaim := Option.some.inj (hmeets.found.symm.trans hmeets'.found)
      have hticket := Option.some.inj (hmeets.ticket.symm.trans hmeets'.ticket)
      rw [hclaim, hticket] at hrevision
      exact hrevision' hrevision

/-- **A run keeps what is final exactly when its acts are orderly.** -/
theorem final_iff_orderly (db : Db) (acts : List Servers.Act) :
    Each Servers.act Final (.idle { lifecycle := db }) acts ↔
      Each Servers.act Orderly (.idle { lifecycle := db }) acts := by
  have hstart : Filed (Servers.idle { lifecycle := db }).state :=
    ⟨List.nodup_nil, nofun, List.nodup_nil⟩
  have hstep : ∀ (c : Servers) (a : Servers.Act), Filed c.state → Filed (c.act a).state :=
    fun c a h => filed_act a h
  exact Calls.each_iff_of_invariant hstep
    (fun c a h => ⟨orderly_of_final, final_of_orderly h⟩) hstart

/-- **Whatever the servers do and in whatever order**, a ticket has one open draft at most, and
drafts and claims have names of their own. -/
theorem filed_run (db : Db) (acts : List Servers.Act) :
    Filed (run Servers.act (.idle { lifecycle := db }) acts).state := by
  have hstart : Filed (Servers.idle { lifecycle := db }).state :=
    ⟨List.nodup_nil, fun _ h => absurd h List.not_mem_nil, List.nodup_nil⟩
  exact @Calls.invariant_all _ _ Servers.act (fun c : Servers => Filed c.state) _
    (fun c a h => filed_act a h) hstart acts

end Runs

/-! ### A second receipt for one draft -/

/-- The digits of a number, the last ones first. -/
def hexDigits : ℕ → ℕ → List Char
  | 0, _ => []
  | k + 1, 0 => '0' :: hexDigits k 0
  | k + 1, n + 1 => Nat.digitChar ((n + 1) % 16) :: hexDigits k ((n + 1) / 16)

/-- A digest of 64 digits. -/
@[reducible] def hexDigest : Digest where
  sha256 s := String.ofList (hexDigits 64
    (s.toByteArray.data.toList.foldl (fun h b => (h * 1000003 + b.toNat) % 16 ^ 64) 7))

/-- A clock that stands still. -/
@[reducible] def stillClock : TouchClock := ⟨fun _ _ => "2026-01-01T00:00:00Z"⟩

def stillEnv : WorkEnv := ⟨fun _ => "2026-01-01T00:00:00Z"⟩

/-- The admission of a message. -/
def messageArgs : Value :=
  .object [("source_kind", .string "mailbox_message"), ("source_scope", .string "support"),
    ("immutable_source_id", .string "message-1"), ("idempotency_key", .string "admit-1"),
    ("causation_id", .string "sync-1"), ("policy_version", .string "1"),
    ("summary", .string "A question"),
    ("source_ref", .object [("scope_id", .string "support"), ("mailbox_id", .string "mailbox-1"),
      ("message_id", .string "message-1")]),
    ("correlation_keys", .array [])]

/-- The proposal of a draft that answers the message. -/
def answerArgs : Value :=
  .object [("ticket_id", .string "ticket-1"), ("expected_revision", .ofInt 1),
    ("route", .string "response_draft"), ("idempotency_key", .string "answer-1"),
    ("causation_id", .string "work-1"), ("actor_id", .string "alice"),
    ("summary", .string "Answer"),
    ("draft", .object [("source_id", .string "source_9a136884bd83fdf0ce3c6dad652f0cda"),
      ("reply_mode", .string "reply"), ("body_text", .string "Thanks")])]

/-- A receipt for the draft. -/
def receiptArgs (operationKey : String) : Value :=
  .object [("ticket_id", .string "ticket-1"),
    ("effect_claim_id", .string "effect_claim_75eccb9e1efa0042ca56cc3b"),
    ("draft_operation_key", .string "draft_operation_c6ad37bd1d3832da1723632652e4eeaf"),
    ("draft_request_digest",
      .string "ecffc38861faab1f1a09283d58641eee6b07abec66f101c9ca9390701918ffd2"),
    ("receipt_id", .string "receipt-1"), ("draft_id", .string "draft-1"),
    ("draft_ref", .object [("draft_operation_key",
        .string "draft_operation_c6ad37bd1d3832da1723632652e4eeaf"), ("mailbox_id", .string "mailbox-1")]),
    ("idempotency_key", .string operationKey), ("causation_id", .string "graph-1")]

/-- A message, a draft that answers it, and its receipt. -/
def drafted : List Servers.Act :=
  [.edit (.ticket (.admitSource stillEnv messageArgs)),
    .edit (.ticket (.admitProposal stillEnv answerArgs)), receiving stillEnv (receiptArgs "put-1")]

/-- A run at whose end a completed claim gives way does not keep what is final. -/
lemma not_final_of_superseded [FloatText] [TouchClock] [Digest] {db : Db}
    {acts : List Servers.Act} {a : Servers.Act}
    (hbefore : (run Servers.act (.idle { lifecycle := db }) acts).state.claims.map
      EffectClaim.status = [.completed])
    (hbehind : ((run Servers.act (.idle { lifecycle := db }) acts).act a).state.claims.map
      EffectClaim.status = [.superseded]) :
    ¬ Each Servers.act Final (.idle { lifecycle := db }) (acts ++ [a]) := by
  intro h
  have hfinal : Final (run Servers.act (.idle { lifecycle := db }) acts) a := h.append.2.1
  obtain ⟨claim, hclaims, hstatus⟩ := List.map_eq_singleton_iff.mp hbefore
  obtain ⟨c', hc', -, hcompleted⟩ :=
    hfinal.lasting.claims claim (hclaims ▸ List.mem_singleton_self _) hstatus
  have hmem := List.mem_map_of_mem (f := EffectClaim.status) hc'
  rw [hbehind, hcompleted] at hmem
  cases List.mem_singleton.mp hmem

lemma drafted_statuses :
    letI := FloatText.fields
    letI := stillClock
    letI := hexDigest
    let before := run Servers.act (.idle { lifecycle := {} }) drafted
    before.state.claims.map EffectClaim.status = [.completed] ∧
      (before.act (receiving stillEnv (receiptArgs "put-2"))).state.claims.map
        EffectClaim.status = [.superseded] := by
  decide +kernel

/-- A claim that the first receipt has completed gives way to the second. -/
theorem completed_claim_superseded :
    letI := FloatText.fields
    letI := stillClock
    letI := hexDigest
    ¬ ∀ (db : Db) (acts : List Servers.Act),
      Each Servers.act Final (.idle { lifecycle := db }) acts := by
  let _ : FloatText := FloatText.fields
  let _ : TouchClock := stillClock
  let _ : Digest := hexDigest
  exact fun h => not_final_of_superseded drafted_statuses.1 drafted_statuses.2 (h {} _)

end WorkLifecycle

end McpSurfaces
