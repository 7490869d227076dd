import McpSurfaces.Sop.CallEffects

/-!
What a call can do to the row of a handoff. The row is made without a lease; a claim leases it,
its holder renews, releases or completes it, a cancelled run takes it along, and a retry opens
it again. Nothing else touches it.

* `HandoffStep`: the moves of a row, each under the call that makes it.
* **`handoff_step`**: in every call, the row of a handoff stays or makes one of these moves.
-/

namespace McpSurfaces

namespace Sop

open EventLedger (Digest)
open Work (Guarantees MayDo)

variable [FloatText] [FloatRead] [Digest] [IsoTime] [JsonSchema]

/-! ### Rows under updates -/

section

omit [FloatText] [FloatRead] [Digest] [IsoTime] [JsonSchema]

/-- An update of handoffs changes the row of each as it says. -/
lemma Store.handoff_updateHandoffs {s : Store} {p : Handoff → Prop} [DecidablePred p]
    {set : Handoff → Handoff} (hkey : ∀ h, (set h).handoffId = h.handoffId) (id : String) :
    (s.updateHandoffs p set).handoff id = (s.handoff id).map fun h => if p h then set h else h :=
  Table.row_updateWhere (fun h _ => hkey h) id

/-- An update of one handoff leaves the others. -/
lemma Store.handoff_updateOne {s : Store} {set : Handoff → Handoff} {id' : String}
    (hkey : ∀ h, (set h).handoffId = h.handoffId) (id : String) :
    (s.updateHandoffs (·.handoffId = id') set).handoff id =
      if id = id' then (s.handoff id).map set else s.handoff id := by
  rw [handoff_updateHandoffs hkey]
  cases hrow : s.handoff id with
  | none => simp
  | some h =>
      obtain rfl : h.handoffId = id := Table.key_of_row hrow
      by_cases hid : h.handoffId = id' <;> simp [hid]

end

namespace Handoff

variable (h : Handoff)

omit [FloatText] [FloatRead] [Digest] [IsoTime] [JsonSchema]

lemma lease_id (consumer token expires now : String) :
    (h.lease consumer token expires now).handoffId = h.handoffId := rfl

lemma renew_id (expires now : String) : (h.renew expires now).handoffId = h.handoffId := rfl

lemma release_id (error : Option String) (now : String) :
    (h.release error now).handoffId = h.handoffId := rfl

lemma cancel_id (error now : String) : (h.cancel error now).handoffId = h.handoffId := rfl

lemma reopen_id (marker now : String) : (h.reopen marker now).handoffId = h.handoffId := rfl

lemma complete_id [FloatText] [FloatRead] [Digest] (c : Completion) (now : String) :
    (h.complete c now).handoffId = h.handoffId := rfl

end Handoff

/-- A row of each handoff is related to that behind. -/
def EachHandoff (P : Option Handoff → Option Handoff → Prop) (s t : Store) : Prop :=
  ∀ id, P (s.handoff id) (t.handoff id)

/-- A row stays, or is made. -/
inductive Kept : Option Handoff → Option Handoff → Prop
  | same (r : Option Handoff) : Kept r r
  | made {h : Handoff} (hpending : h.status = .pending) : Kept none (some h)

/-- A row stays, is made, or is cancelled. -/
inductive Cancelled : Option Handoff → Option Handoff → Prop
  | same (r : Option Handoff) : Cancelled r r
  | made {h : Handoff} (hfree : h.status ≠ .leased) : Cancelled none (some h)
  | cancelled {h : Handoff} (error now : String) (hopen : h.Open) :
      Cancelled (some h) (some (h.cancel error now))

omit [FloatText] [FloatRead] [Digest] [IsoTime] [JsonSchema] in
lemma Kept.cancelled {a b : Option Handoff} (h : Kept a b) : Cancelled a b := by
  cases h with
  | same => exact .same _
  | made hpending => exact .made (by rw [hpending]; decide)

instance : Std.Refl (EachHandoff Kept) := ⟨fun _ _ => .same _⟩

instance : Std.Refl (EachHandoff Cancelled) := ⟨fun _ _ => .same _⟩

instance : IsTrans Store (EachHandoff Kept) := ⟨fun s t u hst htu id => by
  have hfirst := hst id
  have hthen := htu id
  generalize s.handoff id = a at *
  generalize t.handoff id = b at *
  generalize u.handoff id = c at *
  cases hfirst with
  | same => exact hthen
  | made hpending =>
      cases hthen with
      | same => exact .made hpending⟩

instance : IsTrans Store (EachHandoff Cancelled) := ⟨fun s t u hst htu id => by
  have hfirst := hst id
  have hthen := htu id
  generalize s.handoff id = a at *
  generalize t.handoff id = b at *
  generalize u.handoff id = c at *
  cases hfirst with
  | same => exact hthen
  | made hfree =>
      cases hthen with
      | same => exact .made hfree
      | cancelled error now hopen => exact .made (by simp [Handoff.cancel, Handoff.unleased])
  | cancelled error now hopen =>
      cases hthen with
      | same => exact .cancelled error now hopen
      | cancelled error' now' hclosed =>
          simp [Handoff.Open, Handoff.cancel, Handoff.unleased] at hclosed⟩

/-! ### Moves of a row -/

/-- How a call moves the row of a handoff. -/
inductive HandoffStep (id : String) : Call → Option Handoff → Option Handoff → Prop
  | stays (c : Call) (r : Option Handoff) : HandoffStep id c r r
  | made {c : Call} {h : Handoff} (hfree : h.status ≠ .leased) : HandoffStep id c none (some h)
  | claimed {env : Env} {args : Map} {h : Handoff} {consumer expires now : String}
      (hconsumer : argText args "consumer_id" = some consumer) (hnow : nowIso env = .ok now)
      (hfree : h.status = .pending ∨ h.status = .leased ∧ h.ExpiredAt now) :
      HandoffStep id (.tool .handoffClaim env args) (some h)
        (some (h.lease consumer env.token expires now))
  | renewed {env : Env} {args : Map} {h : Handoff} {consumer token expires now : String}
      (hnames : Names args id consumer token) (hheld : h.HeldBy consumer token) :
      HandoffStep id (.tool .handoffRenew env args) (some h) (some (h.renew expires now))
  | released {env : Env} {args : Map} {h : Handoff} {consumer token now : String}
      {error : Option String} (hnames : Names args id consumer token)
      (hheld : h.HeldBy consumer token) :
      HandoffStep id (.tool .handoffRelease env args) (some h) (some (h.release error now))
  | completed {env : Env} {args : Map} {h : Handoff} {c : Completion} {now : String}
      (hnames : Names args id c.consumerId c.leaseToken) (hheld : h.HeldBy c.consumerId c.leaseToken)
      (hnow : nowIso env = .ok now) (hlive : h.LiveAt now) :
      HandoffStep id (.tool .runAdvance env args) (some h) (some (h.complete c now))
  | cancelled {env : Env} {args : Map} {h : Handoff} {error now : String} (hopen : h.Open) :
      HandoffStep id (.tool .runCancel env args) (some h) (some (h.cancel error now))
  | reopened {env : Env} {args : Map} {h : Handoff} {marker now : String}
      (hfailed : h.status = .failed) :
      HandoffStep id (.tool .handoffRetry env args) (some h) (some (h.reopen marker now))

/-! ### What reconciliation does to rows -/

section

omit [IsoTime] [JsonSchema]

/-- Reconciliation leaves the rows of handoffs, and makes pending ones. -/
lemma writes_kept : Writes (EachHandoff Kept) where
  run _ _ _ _ _ _ _ _ := .same _
  action _ _ _ _ _ _ _ _ := .same _
  saved _ _ _ _ := .same _
  event _ _ _ _ _ := .same _
  handoff s run step instructions input inputRef request now id := by
    change Kept _ (Table.row _ (s.handoffs ++ [_]) id)
    rw [Table.row_append, Table.row_singleton]
    change Kept (s.handoff id) ((s.handoff id).or _)
    cases s.handoff id with
    | some h => exact .same _
    | none =>
        split_ifs
        · exact .made rfl
        · exact .same _

lemma writes_cancelled : Writes (EachHandoff Cancelled) where
  run _ _ _ _ _ _ _ _ := .same _
  action _ _ _ _ _ _ _ _ := .same _
  saved _ _ _ _ := .same _
  event _ _ _ _ _ := .same _
  handoff s run step instructions input inputRef request now id := by
    exact (writes_kept.handoff s run step instructions input inputRef request now id).cancelled

end

omit [FloatText] [FloatRead] [Digest] [IsoTime] [JsonSchema] in
/-- The row of a handoff when the open work of a run is cancelled. -/
lemma cancelWork_cancelled (s : Store) (runId error now : String) :
    EachHandoff Cancelled s (s.cancelWork runId error now) := by
  intro id
  rw [Store.cancelWork, Store.handoff_updateHandoffs fun h => h.cancel_id error now]
  change Cancelled (s.handoff id) ((s.handoff id).map _)
  cases s.handoff id with
  | none => exact .same _
  | some h =>
      rw [Option.map_some]
      split_ifs with hopen
      · exact .cancelled error now hopen.2
      · exact .same _

/-! ### Moves of a row in a call -/

section

omit [JsonSchema]

/-- A row that reconciliation leaves or makes. -/
lemma HandoffStep.of_kept {id : String} {c : Call} {a b : Option Handoff} (h : Kept a b) :
    HandoffStep id c a b := by
  cases h with
  | same => exact .stays c _
  | made hpending => exact .made (by rw [hpending]; decide)

/-- A row that an update may change. -/
lemma HandoffStep.of_map {id : String} {c : Call} {r : Option Handoff} {p : Handoff → Prop}
    [DecidablePred p] {set : Handoff → Handoff}
    (h : ∀ row, r = some row → p row → HandoffStep id c (some row) (some (set row))) :
    HandoffStep id c r (r.map fun row => if p row then set row else row) := by
  cases r with
  | none => exact .stays c none
  | some row =>
      rw [Option.map_some]
      split_ifs with hrow
      · exact h row rfl hrow
      · exact .stays c _

lemma actionRecord_kept (env : Env) (args : Map) :
    Guarantees (EachHandoff Kept) (actionRecord env args) :=
  Writes.actionRecord (fun _ _ _ _ _ => .same _) env args

lemma HandoffStep.of_cancelled {id : String} {env : Env} {args : Map} {a b : Option Handoff}
    (h : Cancelled a b) : HandoffStep id (.tool .runCancel env args) a b := by
  cases h with
  | same => exact .stays _ _
  | made hfree => exact .made hfree
  | cancelled error now hopen => exact .cancelled hopen

/-- A row that a completion moves, if any, and reconciliation then leaves or makes. -/
lemma HandoffStep.of_completion {id : String} {env : Env} {args : Map} {c : Completion}
    {s u : Store} {b : Option Handoff} (hc : completionOf args = .ok c)
    (hu : u = s ∨ ∃ row now, s.handoff c.handoffId = some row ∧
      row.HeldBy c.consumerId c.leaseToken ∧ nowIso env = .ok now ∧ row.LiveAt now ∧
      u = s.updateHandoffs (·.handoffId = c.handoffId) (·.complete c now))
    (hkept : Kept (u.handoff id) b) :
    HandoffStep id (.tool .runAdvance env args) (s.handoff id) b := by
  rcases hu with rfl | ⟨row, now, hrow, hheld, hnow, hlive, rfl⟩
  · exact .of_kept hkept
  · rw [Store.handoff_updateOne fun h => h.complete_id c now] at hkept
    split_ifs at hkept with hid
    · subst hid
      rw [hrow, Option.map_some] at hkept
      rw [hrow]
      cases hkept with
      | same => exact .completed (completionOf_names hc) hheld hnow hlive
    · exact .of_kept hkept

/-- A row that a retry opens again, if any, and reconciliation then leaves or makes. -/
lemma HandoffStep.of_retry {id : String} {env : Env} {args : Map} {s u : Store}
    {b : Option Handoff} (hreopened : MayDo (Reopened args) s u) (hkept : Kept (u.handoff id) b) :
    HandoffStep id (.tool .handoffRetry env args) (s.handoff id) b := by
  rcases hreopened with rfl | ⟨runId, v, -, hv, hu⟩
  · exact .of_kept hkept
  have hsame : v.handoff id = s.handoff id := by
    rcases hv with rfl | ⟨e, -, -, -, -, rfl⟩
    · rfl
    · rfl
  rw [← hsame]
  rcases hu with rfl | ⟨id', marker, now, rfl⟩
  · exact .of_kept hkept
  · rw [Store.handoff_updateHandoffs fun h => h.reopen_id marker now] at hkept
    cases hrow : v.handoff id with
    | none =>
        rw [hrow] at hkept
        exact .of_kept hkept
    | some h =>
        rw [hrow, Option.map_some] at hkept
        split_ifs at hkept with hfailed
        · cases hkept with
          | same => exact .reopened hfailed.2
        · exact .of_kept hkept

end

/-- **In every call, the row of a handoff stays or makes one of its moves.** -/
theorem handoff_step (s : Store) (c : Call) (id : String) :
    HandoffStep id c (s.handoff id) ((s.after c).handoff id) := by
  cases c with
  | templates templates => exact .stays _ _
  | tool tool env args =>
      rcases after_tool s tool env args with hsame | hok
      · rw [hsame]
        exact .stays _ _
      · generalize s.after (.tool tool env args) = t at hok ⊢
        cases tool with
        | runStart =>
            obtain ⟨r, hok⟩ := drop_ok hok
            exact .of_kept ((writes_kept.runStart env args).of_exec hok id)
        | runRefresh =>
            obtain ⟨r, hok⟩ := drop_ok hok
            exact .of_kept ((writes_kept.runRefresh env args).of_exec hok id)
        | runAdvance =>
            obtain ⟨r, hok⟩ := drop_ok hok
            obtain ⟨c, u, hc, hkept, hu⟩ := runAdvance_ok writes_kept hok
            exact .of_completion hc hu (hkept id)
        | handoffRetry =>
            obtain ⟨r, hok⟩ := drop_ok hok
            obtain ⟨u, hreopened, hkept⟩ := handoffRetry_ok writes_kept hok
            exact .of_retry hreopened (hkept id)
        | actionRecord =>
            obtain ⟨r, hok⟩ := drop_ok hok
            exact .of_kept ((actionRecord_kept env args).of_exec hok id)
        | actionReconcile => exact .of_kept ((writes_kept.actionReconcile env args).of_exec hok id)
        | runCancel =>
            obtain ⟨r, hok⟩ := drop_ok hok
            exact .of_cancelled
              ((writes_cancelled.runCancel cancelWork_cancelled env args).of_exec hok id)
        | handoffClaim =>
            obtain ⟨r, hok⟩ := drop_ok hok
            rcases handoffClaim_ok hok with rfl | ⟨id', consumer, expires, now, hconsumer, hnow, rfl⟩
            · exact .stays _ _
            · rw [Store.handoff_updateHandoffs fun h => h.lease_id consumer env.token expires now]
              exact .of_map fun h _ hfree => .claimed hconsumer hnow hfree.2
        | handoffRenew =>
            obtain ⟨r, hok⟩ := drop_ok hok
            obtain ⟨id', row, consumer, token, expires, now, hrow, hnames, hheld, rfl⟩ :=
              handoffRenew_ok hok
            rw [Store.handoff_updateHandoffs fun h => h.renew_id expires now]
            refine .of_map fun h hh hid => ?_
            obtain rfl : id' = id := hid.symm.trans (Table.key_of_row hh)
            obtain rfl : h = row := Option.some.inj (hh.symm.trans hrow)
            exact .renewed hnames hheld
        | handoffRelease =>
            obtain ⟨r, hok⟩ := drop_ok hok
            obtain ⟨id', row, consumer, token, error, now, hrow, hnames, hheld, rfl⟩ :=
              handoffRelease_ok hok
            rw [Store.handoff_updateHandoffs fun h => h.release_id error now]
            refine .of_map fun h hh hid => ?_
            obtain rfl : id' = id := hid.symm.trans (Table.key_of_row hh)
            obtain rfl : h = row := Option.some.inj (hh.symm.trans hrow)
            exact .released hnames hheld
        | outboxConsumerRegister =>
            obtain ⟨r, hok⟩ := drop_ok hok
            rcases (outboxConsumerRegister_effect env args).of_exec hok with rfl | ⟨r, -, -, rfl⟩
            · exact .stays _ _
            · exact .stays _ _
        | outboxAck =>
            obtain ⟨r, hok⟩ := drop_ok hok
            rcases outboxAck_ok hok with rfl | ⟨r, -, -, e, requirement, -, -, -, -, rfl⟩
            · exact .stays _ _
            · exact .stays _ _
        | outboxCompact =>
            rcases (outboxCompact_effect env args).of_exec hok with rfl | ⟨cutoff, now, rfl⟩
            · exact .stays _ _
            · exact .stays _ _

end Sop

end McpSurfaces
