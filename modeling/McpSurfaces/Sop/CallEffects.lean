import McpSurfaces.Foundation.Fallible
import McpSurfaces.Sop.Effects

/-!
What each call does to the tables, beyond what reconciliation does: one lemma for each call,
read off a call that did not stop.

* `Handoff.HeldBy`: the row of a handoff is leased to a consumer under a token.
* **`handoffRenew_ok`, `handoffRelease_ok`, `completeHandoff_ok`**: what changes a leased row comes
  from its holder.
* `runAdvance_ok`, `handoffRetry_ok`: what the others write, and reconciliation behind it.
-/

namespace McpSurfaces

namespace Sop

open EventLedger (Digest)
open Lists
open Work (Guarantees MayDo bind_ok ofExcept_ok ofExcept_bind_ok store_bind_ok write_bind_ok)

variable [FloatText] [FloatRead] [Digest] [IsoTime]

/-! ### Rows that are read -/

namespace Handoff

/-- The handoff is leased to a consumer under a token. -/
def HeldBy (h : Handoff) (consumer token : String) : Prop :=
  h.status = .leased ∧ optionalText h.leaseOwner = some consumer ∧
    optionalText h.leaseToken = some token

/-- The handoff is open: it waits for a consumer, or is with one. -/
def Open (h : Handoff) : Prop := h.status = .pending ∨ h.status = .leased

omit [FloatText] [FloatRead] [Digest] [IsoTime] in
/-- A handoff is held by one consumer under one token. -/
lemma HeldBy.unique {h : Handoff} {k t k' t' : String} (hheld : h.HeldBy k t)
    (hother : h.HeldBy k' t') : k = k' ∧ t = t' :=
  ⟨Option.some.inj (hheld.2.1.symm.trans hother.2.1),
    Option.some.inj (hheld.2.2.symm.trans hother.2.2)⟩

end Handoff

/-- What a handoff that was read shares with its row. -/
structure ReadFrom (row h : Handoff) : Prop where
  handoffId : h.handoffId = Str.trim row.handoffId
  runId : h.runId = Str.trim row.runId
  status : h.status = row.status
  leaseOwner : h.leaseOwner = optionalText row.leaseOwner
  leaseToken : h.leaseToken = optionalText row.leaseToken
  leaseExpiresAt : h.leaseExpiresAt = optionalText row.leaseExpiresAt
  lease : h.status = .leased → h.leaseExpiresAt ≠ none

section

omit [FloatRead] [IsoTime]

lemma hydrateHandoff_ok {row h : Handoff} (hok : hydrateHandoff row = .ok h) : ReadFrom row h := by
  unfold hydrateHandoff at hok
  obtain ⟨runId, hrun, hok⟩ := bind_eq_ok hok
  obtain ⟨stepId, -, hok⟩ := bind_eq_ok hok
  obtain ⟨handoffId, hhandoff, hok⟩ := bind_eq_ok hok
  obtain ⟨occurrenceKey, -, hok⟩ := bind_eq_ok hok
  obtain ⟨-, hok⟩ := guard_ok hok
  obtain ⟨sopId, -, hok⟩ := bind_eq_ok hok
  obtain ⟨-, hok⟩ := guard_ok hok
  obtain ⟨-, hok⟩ := guard_ok hok
  obtain ⟨title, -, hok⟩ := bind_eq_ok hok
  obtain ⟨instructions, -, hok⟩ := bind_eq_ok hok
  obtain ⟨request, -, hok⟩ := bind_eq_ok hok
  obtain ⟨-, hok⟩ := guard_ok hok
  obtain ⟨_, hlease, hok⟩ := bind_eq_ok hok
  obtain ⟨-, hok⟩ := guard_ok hok
  obtain ⟨_, -, hok⟩ := bind_eq_ok hok
  obtain ⟨createdAt, -, hok⟩ := bind_eq_ok hok
  obtain ⟨updatedAt, -, hok⟩ := bind_eq_ok hok
  cases hok
  refine ⟨(requiredText_ok hhandoff).1, (requiredText_ok hrun).1, rfl, rfl, rfl, rfl, fun hleased hnone => ?_⟩
  rw [checkLease, if_pos hleased, if_pos (.inr (.inr hnone))] at hlease
  cases hlease

/-- A handoff that was read has a row, and the store is as it was. -/
lemma getHandoff_ok {id : String} {s t : Store} {h : Handoff}
    (hok : Work.exec (getHandoff id) s = (.ok h, t)) :
    t = s ∧ ∃ row, s.handoff id = some row ∧ hydrateHandoff row = .ok h := by
  obtain ⟨a, u, ha, hok⟩ := bind_ok hok
  cases ha
  split at hok
  · cases hok
  next row hrow =>
    obtain ⟨hread, rfl⟩ := ofExcept_ok hok
    exact ⟨rfl, row, hrow, hread⟩

/-- A handoff that is read before the rest. -/
lemma getHandoff_bind_ok {α : Type} {id : String} {f : Handoff → Db α} {s t : Store} {a : α}
    (hok : Work.exec (getHandoff id >>= f) s = (.ok a, t)) :
    ∃ row h, s.handoff id = some row ∧ hydrateHandoff row = .ok h ∧
      Work.exec (f h) s = (.ok a, t) := by
  obtain ⟨h, u, hget, hrest⟩ := bind_ok hok
  obtain ⟨hsame, row, hrow, hread⟩ := getHandoff_ok hget
  exact ⟨row, h, hrow, hread, hsame ▸ hrest⟩

end

/-! ### Calls of a holder -/

/-- The text of an argument. -/
def argText (args : Map) (key : String) : Option String := optionalString (args.get key)

/-- The arguments name a handoff, a consumer and its token. -/
def Names (args : Map) (id consumer token : String) : Prop :=
  argText args "handoff_id" = some id ∧ argText args "consumer_id" = some consumer ∧
    argText args "lease_token" = some token

omit [FloatRead] in
/-- A lease that is found before the rest is that of the caller. -/
lemma requireLease_bind_ok {α : Type} {env : Env} {args : Map} {allowExpired : Bool}
    {f : Handoff → Db α} {s t : Store} {a : α}
    (hok : Work.exec (requireLease env args allowExpired >>= f) s = (.ok a, t)) :
    ∃ h row consumer token, s.handoff h.handoffId = some row ∧
      Names args h.handoffId consumer token ∧ row.HeldBy consumer token ∧
      Work.exec (f h) s = (.ok a, t) := by
  obtain ⟨h, u, hlease, hrest⟩ := bind_ok hok
  unfold requireLease at hlease
  obtain ⟨handoffId, hid, hlease⟩ := ofExcept_bind_ok hlease
  obtain ⟨consumerId, hconsumer, hlease⟩ := ofExcept_bind_ok hlease
  obtain ⟨leaseToken, htoken, hlease⟩ := ofExcept_bind_ok hlease
  obtain ⟨row, read, hrow, hread, hlease⟩ := getHandoff_bind_ok hlease
  obtain ⟨hleased, hlease⟩ := Work.guard_ok hlease
  obtain ⟨hmatch, hlease⟩ := Work.guard_ok hlease
  obtain ⟨_, -, hlease⟩ := ofExcept_bind_ok hlease
  cases hlease
  have hfrom := hydrateHandoff_ok hread
  have hids : h.handoffId = handoffId := by
    rw [hfrom.handoffId, Table.key_of_row hrow, trim_of_read (requiredString_ok hid)]
  push Not at hmatch
  exact ⟨h, row, consumerId, leaseToken, hids ▸ hrow,
    ⟨hids ▸ requiredString_ok hid, requiredString_ok hconsumer, requiredString_ok htoken⟩,
    ⟨hfrom.status ▸ not_not.mp hleased, hfrom.leaseOwner ▸ hmatch.1, hfrom.leaseToken ▸ hmatch.2⟩,
    hrest⟩

/-! ### Claims, renewals and releases -/

section

omit [FloatRead]

/-- A claim leases at most one handoff, which is pending or whose lease is over. -/
lemma handoffClaim_ok {env : Env} {args : Map} {s t : Store} {r : Option Handoff}
    (hok : Work.exec (handoffClaim env args) s = (.ok r, t)) :
    t = s ∨ ∃ id consumer expires now, argText args "consumer_id" = some consumer ∧
      nowIso env = .ok now ∧ t = s.updateHandoffs
        (fun h => h.handoffId = id ∧ (h.status = .pending ∨ h.status = .leased ∧ h.ExpiredAt now))
        (·.lease consumer env.token expires now) := by
  unfold handoffClaim at hok
  obtain ⟨consumerId, hconsumer, hok⟩ := ofExcept_bind_ok hok
  obtain ⟨executor, -, hok⟩ := ofExcept_bind_ok hok
  obtain ⟨leaseMs, -, hok⟩ := ofExcept_bind_ok hok
  obtain ⟨now, hnow, hok⟩ := ofExcept_bind_ok hok
  have hok := store_bind_ok hok
  split at hok
  · cases hok
    exact .inl rfl
  next candidate _ =>
    obtain ⟨handoffId, -, hok⟩ := ofExcept_bind_ok hok
    obtain ⟨expires, -, hok⟩ := ofExcept_bind_ok hok
    obtain ⟨_, claimed, -, -, hok⟩ := getHandoff_bind_ok (write_bind_ok hok)
    cases hok
    exact .inr ⟨handoffId, consumerId, expires, now, requiredString_ok hconsumer, hnow, rfl⟩

lemma handoffRenew_ok {env : Env} {args : Map} {s t : Store} {h : Handoff}
    (hok : Work.exec (handoffRenew env args) s = (.ok h, t)) :
    ∃ id row consumer token expires now, s.handoff id = some row ∧ Names args id consumer token ∧
      row.HeldBy consumer token ∧
      t = s.updateHandoffs (·.handoffId = id) (·.renew expires now) := by
  obtain ⟨read, row, consumer, token, hrow, hnames, hheld, hok⟩ := requireLease_bind_ok hok
  obtain ⟨leaseMs, -, hok⟩ := ofExcept_bind_ok hok
  obtain ⟨expires, -, hok⟩ := ofExcept_bind_ok hok
  obtain ⟨now, -, hok⟩ := ofExcept_bind_ok hok
  exact ⟨read.handoffId, row, consumer, token, expires, now, hrow, hnames, hheld,
    (getHandoff_ok (write_bind_ok hok)).1⟩

lemma handoffRelease_ok {env : Env} {args : Map} {s t : Store} {h : Handoff}
    (hok : Work.exec (handoffRelease env args) s = (.ok h, t)) :
    ∃ id row consumer token error now, s.handoff id = some row ∧ Names args id consumer token ∧
      row.HeldBy consumer token ∧
      t = s.updateHandoffs (·.handoffId = id) (·.release error now) := by
  obtain ⟨read, row, consumer, token, hrow, hnames, hheld, hok⟩ := requireLease_bind_ok hok
  obtain ⟨error, -, hok⟩ := ofExcept_bind_ok hok
  obtain ⟨now, -, hok⟩ := ofExcept_bind_ok hok
  exact ⟨read.handoffId, row, consumer, token, error, now, hrow, hnames, hheld,
    (getHandoff_ok (write_bind_ok hok)).1⟩

end

/-! ### Completions -/

omit [FloatRead] [Digest] [IsoTime] in
/-- The arguments of a completion name its handoff, its consumer and its token. -/
lemma completionOf_names {args : Map} {c : Completion} (hok : completionOf args = .ok c) :
    Names args c.handoffId c.consumerId c.leaseToken := by
  obtain ⟨handoffId, hid, hok⟩ := bind_eq_ok hok
  obtain ⟨runId, -, hok⟩ := bind_eq_ok hok
  obtain ⟨stepId, -, hok⟩ := bind_eq_ok hok
  obtain ⟨consumerId, hconsumer, hok⟩ := bind_eq_ok hok
  obtain ⟨leaseToken, htoken, hok⟩ := bind_eq_ok hok
  obtain ⟨completionKey, -, hok⟩ := bind_eq_ok hok
  obtain ⟨principal, -, hok⟩ := bind_eq_ok hok
  obtain ⟨outcome, -, hok⟩ := bind_eq_ok hok
  obtain ⟨result, -, hok⟩ := bind_eq_ok hok
  cases hok
  exact ⟨requiredString_ok hid, requiredString_ok hconsumer, requiredString_ok htoken⟩

/-- A lease is live at a time: its end, read from its text, is to come. -/
def Handoff.LiveAt (h : Handoff) (now : String) : Prop :=
  ∃ expires e n, optionalText h.leaseExpiresAt = some expires ∧ parseIso expires = some e ∧
    parseIso now = some n ∧ n < e

omit [FloatText] [FloatRead] [Digest] in
/-- A leased handoff whose lease is not over is live. -/
lemma ReadFrom.liveAt {row h : Handoff} {now : String} (hfrom : ReadFrom row h)
    (hleased : h.status = .leased) (hlive : ¬ leaseOver h now) : row.LiveAt now := by
  obtain ⟨expires, hexpires⟩ := Option.ne_none_iff_exists'.mp (hfrom.lease hleased)
  rw [leaseOver, hexpires, Option.getD_some] at hlive
  split at hlive
  next e n he hn =>
    exact ⟨expires, e, n, hfrom.leaseExpiresAt ▸ hexpires, he, hn, by simpa using hlive⟩
  next => exact absurd rfl hlive

/-- A handoff is completed by its holder while its lease is live. -/
lemma completeHandoff_ok {env : Env} {c : Completion} {s t : Store} {h : Handoff} {replayed : Bool}
    (hok : Work.exec (completeHandoff env c) s = (.ok (h, replayed), t)) :
    t = s ∨ ∃ row now, s.handoff c.handoffId = some row ∧ row.HeldBy c.consumerId c.leaseToken ∧
      nowIso env = .ok now ∧ row.LiveAt now ∧
      t = s.updateHandoffs (·.handoffId = c.handoffId) (·.complete c now) := by
  unfold completeHandoff at hok
  obtain ⟨row, read, hrow, hread, hok⟩ := getHandoff_bind_ok hok
  have hfrom := hydrateHandoff_ok hread
  obtain ⟨-, hok⟩ := Work.guard_ok hok
  split at hok
  · split_ifs at hok
    · cases hok
      exact .inl rfl
    · cases hok
  · obtain ⟨hleased, hok⟩ := Work.guard_ok hok
    obtain ⟨hlease, hok⟩ := Work.guard_ok hok
    obtain ⟨now, hnow, hok⟩ := ofExcept_bind_ok hok
    obtain ⟨hlive, hok⟩ := Work.guard_ok hok
    obtain ⟨_, completed, -, -, hok⟩ := getHandoff_bind_ok (write_bind_ok hok)
    cases hok
    push Not at hlease
    exact .inr ⟨row, now, hrow, ⟨hfrom.status ▸ not_not.mp hleased, hfrom.leaseOwner ▸ hlease.1,
      hfrom.leaseToken ▸ hlease.2⟩, hnow, hfrom.liveAt (not_not.mp hleased) hlive, rfl⟩

/-! ### Calls that reconcile -/

section Reconcile

variable [JsonSchema] {R : Store → Store → Prop} [Std.Refl R] [IsTrans Store R]

omit [FloatRead] [IsoTime] [JsonSchema] in
/-- A run that is read before the rest. -/
lemma getRun_bind_ok {α : Type} {id : String} {f : Run → Db α} {s t : Store} {a : α}
    (hok : Work.exec (getRun id >>= f) s = (.ok a, t)) :
    ∃ row run, s.run id = some row ∧ hydrateRun row = .ok run ∧ Work.exec (f run) s = (.ok a, t) := by
  obtain ⟨run, u, hget, hrest⟩ := bind_ok hok
  have hget := store_bind_ok hget
  split at hget
  · cases hget
  next row hrow =>
    obtain ⟨hread, hsame⟩ := ofExcept_ok hget
    exact ⟨row, run, hrow, hread, hsame ▸ hrest⟩

/-- What a completion writes: the handoff of its holder, and what reconciliation keeps. -/
lemma runAdvance_ok (w : Writes R) {env : Env} {args : Map} {s t : Store} {r : Run × Handoff × Bool}
    (hok : Work.exec (runAdvance env args) s = (.ok r, t)) :
    ∃ c u, completionOf args = .ok c ∧ R u t ∧ (u = s ∨
      ∃ row now, s.handoff c.handoffId = some row ∧ row.HeldBy c.consumerId c.leaseToken ∧
        nowIso env = .ok now ∧ row.LiveAt now ∧
        u = s.updateHandoffs (·.handoffId = c.handoffId) (·.complete c now)) := by
  obtain ⟨c, hc, hok⟩ := ofExcept_bind_ok hok
  obtain ⟨_, run, -, -, hok⟩ := getRun_bind_ok hok
  split at hok
  next index step _ _ =>
    unfold advanceStep at hok
    obtain ⟨-, hok⟩ := Work.guard_ok hok
    obtain ⟨-, hok⟩ := Work.guard_ok hok
    obtain ⟨-, hok⟩ := Work.guard_ok hok
    obtain ⟨_, -, hok⟩ := ofExcept_bind_ok hok
    obtain ⟨⟨h, replayed⟩, u, hcomplete, hok⟩ := bind_ok hok
    have hrest : Guarantees R (recordAdvance env c run index step h replayed) := by
      unfold recordAdvance
      split
      · exact .ite (.pure _) (.throw _)
      · exact .bind (.ofExcept _) fun now => .bind (w.persistRun _ _) fun _ =>
          .bind (w.reconcileRunAndAncestors _ _) fun _ => .bind (Writes.getRun _) fun _ => .pure _
    exact ⟨c, u, hc, hrest.of_exec hok, completeHandoff_ok hcomplete⟩
  next => cases hok

/-- What reopening a run writes: its event goes, which has no receipts and is not compacted. -/
def ReopensRun (runId : String) (s t : Store) : Prop :=
  ∃ e ∈ s.outbox, e.runId = runId ∧ e.compactedAt = none ∧
    (∀ r ∈ s.receipts, r.eventId ≠ Str.trim e.eventId) ∧ t = s.withoutEvent (Str.trim e.eventId) runId

omit [FloatText] [FloatRead] [Digest] [IsoTime] [JsonSchema] in
lemma reopenTerminal_effect (runId : String) :
    Guarantees (MayDo (ReopensRun runId)) (reopenTerminal runId) := by
  refine .handle_read (.bind_read (.store_bind fun s => ?_) fun _ => .pure _) fun stop =>
    .ite (.pure _) (.throw _)
  split
  · exact .inl rfl
  next e hevent =>
    rw [Work.exec_bind, Work.exec_ofExcept]
    cases hid : requiredText e.eventId "sop_outbox_event_id_invalid" 512 with
    | error stop => exact .inl rfl
    | ok eventId =>
        obtain ⟨rfl, -⟩ := requiredText_ok hid
        dsimp only
        split_ifs with hclosed
        · exact .inl rfl
        · simp only [not_or, not_exists, not_and] at hclosed
          exact .inr ⟨e, Table.mem_of_row hevent, Table.key_of_row hevent, by simpa using hclosed.2,
            fun r hr hkey => hclosed.1 r hr hkey, rfl⟩

/-- The arguments of a retry name a failed handoff of a run. -/
def RetriesRun (s : Store) (args : Map) (runId : String) : Prop :=
  ∃ id row, argText args "handoff_id" = some id ∧ s.handoff id = some row ∧
    row.status = .failed ∧ Str.trim row.runId = runId

/-- What a retry writes by itself: the event of the run goes, and the handoff is open again. -/
def Reopened (args : Map) (s u : Store) : Prop :=
  ∃ runId v, RetriesRun s args runId ∧ MayDo (ReopensRun runId) s v ∧
    MayDo (fun v u => ∃ id marker now, u = v.updateHandoffs
      (fun h => h.handoffId = id ∧ h.status = .failed) (·.reopen marker now)) v u

omit [FloatRead] [IsoTime] [JsonSchema] in
lemma hydrateRun_id {row run : Run} (hok : hydrateRun row = .ok run) :
    run.runId = Str.trim row.runId := by
  unfold hydrateRun at hok
  obtain ⟨runId, hid, hok⟩ := bind_eq_ok hok
  obtain ⟨sopId, -, hok⟩ := bind_eq_ok hok
  obtain ⟨-, hok⟩ := guard_ok hok
  obtain ⟨-, hok⟩ := guard_ok hok
  obtain ⟨_, -, hok⟩ := bind_eq_ok hok
  obtain ⟨inputRef, -, hok⟩ := bind_eq_ok hok
  obtain ⟨_, -, hok⟩ := bind_eq_ok hok
  obtain ⟨_, -, hok⟩ := bind_eq_ok hok
  obtain ⟨sopTitle, -, hok⟩ := bind_eq_ok hok
  obtain ⟨outputRef, -, hok⟩ := bind_eq_ok hok
  obtain ⟨createdAt, -, hok⟩ := bind_eq_ok hok
  obtain ⟨updatedAt, -, hok⟩ := bind_eq_ok hok
  cases hok
  exact (requiredText_ok hid).1

/-- What a retry writes: it opens a failed handoff again, and what reconciliation keeps. -/
lemma handoffRetry_ok (w : Writes R) {env : Env} {args : Map} {s t : Store} {r : Run}
    (hok : Work.exec (handoffRetry env args) s = (.ok r, t)) :
    ∃ u, MayDo (Reopened args) s u ∧ R u t := by
  obtain ⟨handoffId, hid, hok⟩ := ofExcept_bind_ok hok
  obtain ⟨_, -, hok⟩ := ofExcept_bind_ok hok
  obtain ⟨reason, -, hok⟩ := ofExcept_bind_ok hok
  obtain ⟨row, h, hrow, hread, hok⟩ := getHandoff_bind_ok hok
  have hfrom := hydrateHandoff_ok hread
  split at hok
  · exact ⟨s, .inl rfl, (Writes.getRun _).of_exec hok⟩
  · unfold retryHandoff at hok
    obtain ⟨hfailed, hok⟩ := Work.guard_ok hok
    obtain ⟨-, hok⟩ := Work.guard_ok hok
    obtain ⟨rowOfRun, run, hrun, hreadRun, hok⟩ := getRun_bind_ok hok
    have hretries : RetriesRun s args run.runId := by
      refine ⟨handoffId, row, requiredString_ok hid, hrow, hfrom.status ▸ not_not.mp hfailed, ?_⟩
      rw [hydrateRun_id hreadRun, Table.key_of_row hrun, hfrom.runId, Str.trim_trim]
    split at hok
    next index step _ _ =>
      unfold retryStep at hok
      obtain ⟨-, hok⟩ := Work.guard_ok hok
      obtain ⟨-, hok⟩ := Work.guard_ok hok
      obtain ⟨reopened, v, hreopen, hok⟩ := bind_ok hok
      have hv := (reopenTerminal_effect run.runId).of_exec hreopen
      split at hok
      · unfold reopenHandoff at hok
        obtain ⟨now, -, hok⟩ := ofExcept_bind_ok hok
        have hok := write_bind_ok hok
        refine ⟨_, .inr ⟨run.runId, v, hretries, hv, .inr ⟨h.handoffId, retryMarker reason, now, rfl⟩⟩,
          Guarantees.of_exec ?_ hok⟩
        split
        · exact .throw _
        · exact .bind (w.persistRun _ _) fun _ => .bind (w.reconcileRunAndAncestors _ _) fun _ =>
            .bind (Writes.getRun _) fun _ => .bind (Writes.getHandoff _) fun _ => .pure _
      · refine ⟨v, .inr ⟨run.runId, v, hretries, hv, .inl rfl⟩, Guarantees.of_exec ?_ hok⟩
        refine .bind (w.admitRun _ _ _ _) fun admitted => ?_
        refine .bind (w.reconcileRunAndAncestors _ _) fun _ => .bind (Writes.getRun _) fun retried =>
          .bind .store fun s => ?_
        split
        · exact .pure _
        · exact .bind (Writes.getHandoff _) fun _ => .pure _
    next => cases hok

/-! ### Calls that write nothing else -/

namespace Writes

lemma runStart (w : Writes R) (env : Env) (args : Map) : Guarantees R (Sop.runStart env args) :=
  .bind (w.admitRun _ _ _ _) fun _ => .bind (w.reconcileRunAndAncestors _ _) fun _ =>
    .bind (getRun _) fun _ => .pure _

lemma runRefresh (w : Writes R) (env : Env) (args : Map) : Guarantees R (Sop.runRefresh env args) :=
  .bind (.ofExcept _) fun _ => .bind (getRun _) fun _ =>
    .bind (w.reconcileRunAndAncestors _ _) fun _ => getRun _

lemma actionReconcile (w : Writes R) (env : Env) (args : Map) :
    Guarantees R (Sop.actionReconcile env args) := by
  unfold Sop.actionReconcile
  split
  · exact w.reconcileRunAndAncestors _ _
  · exact .pure _

omit [JsonSchema] in
lemma actionRecord (hactions : ∀ s p [DecidablePred p] set, R s (s.updateActions p set))
    (env : Env) (args : Map) : Guarantees R (Sop.actionRecord env args) := by
  unfold Sop.actionRecord
  refine .bind (.ofExcept _) fun _ => .bind (.ofExcept _) fun _ => .bind (.ofExcept _) fun _ =>
    .bind (.ofExcept _) fun _ => .bind (.ofExcept _) fun _ => .bind (getAction _) fun a =>
      .bind .store fun s => ?_
  split
  · exact .ite (.pure _) (.throw _)
  · dsimp only
    split
    · exact .throw _
    · exact .guard fun _ => .bind (.ofExcept _) fun now =>
        .bind (.write fun s => hactions s _ _) fun _ => .bind (getAction _) fun _ => .pure _

/-- A cancellation keeps what is also kept where the open work of a run is cancelled. -/
lemma runCancel (w : Writes R)
    (hcancel : ∀ s runId error now, R s (s.cancelWork runId error now)) (env : Env) (args : Map) :
    Guarantees R (Sop.runCancel env args) := by
  have hinternal : ∀ depth runId reason seen,
      Guarantees R (cancelRunInternal env depth runId reason seen) := by
    intro depth
    induction depth with
    | zero => exact fun _ _ _ => .throw _
    | succ depth ih =>
        intro runId reason seen
        rw [cancelRunInternal]
        refine .ite (.pure _) (.bind (getRun _) fun run => .ite (.pure _) ?_)
        refine .bind (.foldlM (fun _ _ => ih _ _ _) _ _) fun seen => .bind ?_ fun _ => .pure _
        exact .bind (.ofExcept _) fun now => .bind (.write fun s => hcancel _ _ _ _) fun _ =>
          .bind (w.persistRun _ _) fun saved => w.putTerminalOutbox _ _
  refine .bind (.ofExcept _) fun _ => .bind (getRun _) fun _ => .ite (.pure _) (.guard fun _ => ?_)
  exact .bind (.ofExcept _) fun _ => .bind (hinternal _ _ _ _) fun _ =>
    .bind (w.reconcileRunAndAncestors _ _) fun _ => .bind (getRun _) fun _ => .pure _

end Writes

end Reconcile

/-! ### Consumers of the outbox -/

omit [FloatText] [FloatRead] [Digest] in
/-- A consumer is registered once, and for no history that is compacted. -/
lemma outboxConsumerRegister_effect (env : Env) (args : Map) :
    Guarantees (MayDo fun s t => ∃ r : Requirement, s.requirement r.topic r.consumerId = none ∧
      (∀ e ∈ s.outbox, e.topic = r.topic → r.startAt ≤ e.createdAt → e.compactedAt = none) ∧
      t = s.withRequirement r) (outboxConsumerRegister env args) := by
  refine .ofExcept_bind fun topic _ => .ofExcept_bind fun consumerId _ => .ofExcept_bind fun now _ =>
    .ofExcept_bind fun startAt _ => .store_bind fun s => ?_
  split
  · split_ifs <;> exact .inl rfl
  next hnone =>
    split_ifs with hcompacted
    · exact .inl rfl
    · refine .inr ⟨⟨topic, consumerId, startAt, now⟩, hnone, fun e he htopic hstart => ?_, rfl⟩
      by_contra hsome
      exact hcompacted ⟨e, he, htopic, hstart, Option.isSome_iff_ne_none.mpr hsome⟩

section

omit [FloatRead] [Digest] [IsoTime]

/-- What an event that was read shares with its row. -/
lemma hydrateOutboxEvent_ok {row e : OutboxEvent} (hok : hydrateOutboxEvent row = .ok e) :
    e.topic = Str.trim row.topic ∧ e.createdAt = Str.trim row.createdAt := by
  unfold hydrateOutboxEvent at hok
  obtain ⟨-, hok⟩ := guard_ok hok
  obtain ⟨topic, htopic, hok⟩ := bind_eq_ok hok
  obtain ⟨-, hok⟩ := guard_ok hok
  obtain ⟨_, -, hok⟩ := bind_eq_ok hok
  obtain ⟨eventId, -, hok⟩ := bind_eq_ok hok
  obtain ⟨partitionKey, -, hok⟩ := bind_eq_ok hok
  obtain ⟨runId, -, hok⟩ := bind_eq_ok hok
  obtain ⟨sopId, -, hok⟩ := bind_eq_ok hok
  obtain ⟨-, hok⟩ := guard_ok hok
  obtain ⟨occurrenceKey, -, hok⟩ := bind_eq_ok hok
  obtain ⟨createdAt, hcreated, hok⟩ := bind_eq_ok hok
  obtain ⟨availableAt, -, hok⟩ := bind_eq_ok hok
  cases hok
  refine ⟨?_, (requiredText_ok hcreated).1⟩
  unfold normalizeOutboxTopic at htopic
  dsimp only at htopic
  split_ifs at htopic
  cases htopic
  rfl

/-- An event that is read before the rest. -/
lemma requireOutboxEvent_bind_ok {α : Type} {id : String} {f : OutboxEvent → Db α} {s t : Store}
    {a : α} (hok : Work.exec (requireOutboxEvent id >>= f) s = (.ok a, t)) :
    ∃ row e, s.event id = some row ∧ hydrateOutboxEvent row = .ok e ∧
      Work.exec (f e) s = (.ok a, t) := by
  obtain ⟨e, u, hget, hrest⟩ := bind_ok hok
  have hget := store_bind_ok hget
  split at hget
  · cases hget
  next row hrow =>
    obtain ⟨hread, hsame⟩ := ofExcept_ok hget
    exact ⟨row, e, hrow, hread, hsame ▸ hrest⟩

end

/-- What an acknowledgement records: a first receipt of a registered consumer, for an event that
is there and not before its start. -/
def Acknowledges (s t : Store) (r : Receipt) : Prop :=
  ∃ e requirement, s.event r.eventId = some e ∧
    s.requirement (Str.trim e.topic) r.consumerId = some requirement ∧
    requirement.startAt ≤ Str.trim e.createdAt ∧ s.receipt r.eventId r.consumerId = none ∧
    t = s.withReceipt r

omit [Digest] in
lemma outboxAck_ok {env : Env} {args : Map} {s t : Store} {result : Receipt × Bool}
    (hok : Work.exec (outboxAck env args) s = (.ok result, t)) :
    t = s ∨ ∃ r, argText args "event_id" = some r.eventId ∧
      argText args "consumer_id" = some r.consumerId ∧ Acknowledges s t r := by
  obtain ⟨receipt, -, hok⟩ := ofExcept_bind_ok hok
  obtain ⟨_, -, hok⟩ := ofExcept_bind_ok hok
  obtain ⟨eventId, hid, hok⟩ := ofExcept_bind_ok hok
  obtain ⟨consumerId, hconsumer, hok⟩ := ofExcept_bind_ok hok
  obtain ⟨row, event, hrow, hread, hok⟩ := requireOutboxEvent_bind_ok hok
  have hfrom := hydrateOutboxEvent_ok hread
  have hok := store_bind_ok hok
  split at hok
  · cases hok
  next requirement hrequirement =>
    obtain ⟨hstart, hok⟩ := Work.guard_ok hok
    split at hok
    · obtain ⟨_, -, hok⟩ := ofExcept_bind_ok hok
      cases hok
      exact .inl rfl
    next hnone =>
      obtain ⟨now, -, hok⟩ := ofExcept_bind_ok hok
      have hok := write_bind_ok hok
      cases hok
      rw [hfrom.2, String.not_lt] at hstart
      rw [hfrom.1] at hrequirement
      exact .inr ⟨⟨eventId, consumerId, now, column receipt⟩, requiredString_ok hid,
        requiredString_ok hconsumer, row, requirement, hrow, hrequirement, hstart, hnone, rfl⟩

omit [FloatText] [FloatRead] [Digest] in
lemma outboxCompact_effect (env : Env) (args : Map) :
    Guarantees (MayDo fun s t => ∃ cutoff now,
      t = s.updateOutbox (s.Compactable cutoff) (·.compact now)) (outboxCompact env args) :=
  .ofExcept_bind fun _ _ => .ofExcept_bind fun cutoff _ => .ofExcept_bind fun now _ _ =>
    .inr ⟨cutoff, now, rfl⟩

/-! ### The call of a tool -/

section Tools

omit [FloatText] [FloatRead] [Digest] [IsoTime] in
/-- The result of a tool is dropped. -/
lemma drop_ok {α : Type} {x : Db α} {s t : Store} {u : Unit}
    (hok : Work.exec (do let _ ← x) s = (.ok u, t)) : ∃ a, Work.exec x s = (.ok a, t) := by
  obtain ⟨a, v, hx, hok⟩ := bind_ok hok
  cases hok
  exact ⟨a, hx⟩

/-- A call that stops leaves the store, one that does not has done its work. -/
lemma after_tool [JsonSchema] (s : Store) (tool : Tool) (env : Env) (args : Map) :
    s.after (.tool tool env args) = s ∨
      Work.exec (perform tool env args) s = (.ok (), s.after (.tool tool env args)) := by
  change (Work.transaction (perform tool env args) s).2 = s ∨
    _ = (_, (Work.transaction (perform tool env args) s).2)
  cases hrun : Work.transaction (perform tool env args) s with
  | mk r t =>
    cases r with
    | ok u => exact .inr (Work.transaction_ok hrun)
    | error e => exact .inl (Work.transaction_error hrun)

end Tools

end Sop

end McpSurfaces
