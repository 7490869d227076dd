import McpSurfaces.Foundation.Calls
import McpSurfaces.Sop.HandoffMoves

/-!
Leases of handoffs, over runs of calls of any number of consumers.

* `claims`: the claims of a handoff in a run, with their consumers and tokens.
* `held_of_run`: whoever holds a handoff made the last claim of it.
* **`lease_exclusive`**: one consumer at most can renew, release or complete a handoff; a
  completion is that of the last claim, before its end; and a token that was claimed before a
  handoff changed hands never changes it again.
-/

namespace McpSurfaces

namespace Sop

open EventLedger (Digest)
open Calls (run)

section Leases

variable [FloatText] [FloatRead] [Digest] [IsoTime] [JsonSchema]

/-! ### Claims of a run -/

/-- The claim of a handoff that a call makes: its consumer and its token. -/
def Store.claim (s : Store) (id : String) : Call → Option (String × String)
  | .tool .handoffClaim env args =>
      if (s.after (.tool .handoffClaim env args)).handoff id = s.handoff id then none
      else some ((argText args "consumer_id").getD "", Str.trim env.token)
  | _ => none

/-- The claims of a handoff in a run of calls. -/
def claims (id : String) (s : Store) : List Call → List (String × String)
  | [] => []
  | c :: rest => (s.claim id c).toList ++ claims id (s.after c) rest

/-- The token of a lease that a call may give. -/
def Call.leaseToken : Call → Option String
  | .tool .handoffClaim env _ => some (Str.trim env.token)
  | _ => none

/-- The tokens that a run of calls may give. -/
def leaseTokens (calls : List Call) : List String := calls.filterMap Call.leaseToken

/-- The tokens of claims are tokens of the calls. -/
lemma mem_leaseTokens_of_claims {id : String} {s : Store} {calls : List Call} {k t : String}
    (h : (k, t) ∈ claims id s calls) : t ∈ leaseTokens calls := by
  induction calls generalizing s with
  | nil => cases h
  | cons c rest ih =>
      rw [leaseTokens, List.mem_filterMap]
      rcases List.mem_append.mp h with hfirst | hrest
      · refine ⟨c, List.mem_cons_self, ?_⟩
        unfold Store.claim at hfirst
        split at hfirst
        · split_ifs at hfirst
          · cases hfirst
          · simp only [Option.toList_some, List.mem_singleton, Prod.mk.injEq] at hfirst
            rw [Call.leaseToken, hfirst.2]
        · cases hfirst
      · obtain ⟨d, hd, ht⟩ := List.mem_filterMap.mp (ih hrest)
        exact ⟨d, List.mem_cons_of_mem _ hd, ht⟩

/-! ### Who holds a handoff -/

/-- The row of a handoff is held under a token. -/
def Store.HeldBy (s : Store) (id k t : String) : Prop := ∃ h, s.handoff id = some h ∧ h.HeldBy k t

/-- A call that leaves the row of a handoff does not claim it. -/
lemma claim_of_same {s : Store} {c : Call} {id : String}
    (h : (s.after c).handoff id = s.handoff id) : s.claim id c = none := by
  unfold Store.claim
  split
  · exact if_pos h
  · rfl

omit [FloatText] [FloatRead] [Digest] [IsoTime] [JsonSchema] in
/-- A row that is not leased is held by nobody. -/
lemma not_heldBy {h : Handoff} (hstatus : h.status ≠ .leased) (k t : String) : ¬ h.HeldBy k t :=
  fun hheld => hstatus hheld.1

omit [IsoTime] [JsonSchema] in
lemma complete_not_leased (h : Handoff) (c : Completion) (now : String) :
    (h.complete c now).status ≠ .leased := by
  change c.outcome.handoff ≠ .leased
  cases c.outcome <;> decide

omit [FloatText] [FloatRead] [Digest] [IsoTime] [JsonSchema] in
/-- A row that was just leased is held by who claimed it. -/
lemma heldBy_lease {h : Handoff} {consumer token expires now k t : String} {args : Map}
    (hconsumer : argText args "consumer_id" = some consumer)
    (hheld : (h.lease consumer token expires now).HeldBy k t) : consumer = k ∧ Str.trim token = t := by
  obtain ⟨-, hk, ht⟩ := hheld
  have hread := optionalText_of_read hconsumer
  refine ⟨Option.some.inj (hread.symm.trans hk), ?_⟩
  exact Option.some.inj (Option.filter_eq_some_iff.mp ht).1

/-- Who holds a handoff behind a call has just claimed it, or held it before. -/
lemma held_of_call {s : Store} {c : Call} {id k t : String} (h : (s.after c).HeldBy id k t) :
    s.claim id c = some (k, t) ∨ s.claim id c = none ∧ s.HeldBy id k t := by
  obtain ⟨row, hrow, hheld⟩ := h
  have hstep := handoff_step s c id
  rw [hrow] at hstep
  generalize hbefore : s.handoff id = before at hstep
  cases hstep with
  | stays => exact .inr ⟨claim_of_same (hrow.trans hbefore.symm), row, hbefore, hheld⟩
  | made hfree => exact absurd hheld (not_heldBy hfree k t)
  | @claimed env args old consumer expires now hconsumer hnow hfree =>
      left
      obtain ⟨rfl, rfl⟩ := heldBy_lease hconsumer hheld
      have hchanged : some (old.lease consumer env.token expires now) ≠ some old := fun heq => by
        have hcount := congrArg Handoff.attemptCount (Option.some.inj heq)
        exact absurd hcount (Nat.succ_ne_self _)
      rw [Store.claim, hrow, hbefore, if_neg hchanged, hconsumer, Option.getD_some]
  | @renewed env args old consumer token expires now hnames hold =>
      exact .inr ⟨rfl, old, hbefore, hheld⟩
  | released => exact absurd hheld (not_heldBy (by simp [Handoff.release, Handoff.unleased]) k t)
  | @completed env args old c now hnames hold hnow hlive =>
      exact absurd hheld (not_heldBy (complete_not_leased old c now) k t)
  | cancelled => exact absurd hheld (not_heldBy (by simp [Handoff.cancel, Handoff.unleased]) k t)
  | reopened => exact absurd hheld (not_heldBy (by simp [Handoff.reopen, Handoff.unleased]) k t)

/-- **Who holds a handoff behind a run made the last claim of it**, or held it before and nobody
has claimed it. -/
theorem held_of_run {s : Store} {calls : List Call} {id k t : String}
    (h : (run Store.after s calls).HeldBy id k t) :
    (claims id s calls).getLast? = some (k, t) ∨ claims id s calls = [] ∧ s.HeldBy id k t := by
  induction calls generalizing s with
  | nil => exact .inr ⟨rfl, h⟩
  | cons c rest ih =>
      rw [claims]
      rcases ih h with hlast | ⟨hnone, hheld⟩
      · left
        rw [List.getLast?_append, hlast]
        rfl
      · rw [hnone, List.append_nil]
        rcases held_of_call hheld with hclaim | ⟨hclaim, hbefore⟩
        · left
          rw [hclaim]
          rfl
        · right
          exact ⟨by rw [hclaim]; rfl, hbefore⟩

/-! ### Calls of a holder -/

/-- A call renews, releases or completes a handoff for a consumer under a token. -/
def Store.Uses (s : Store) (id k t : String) : Call → Prop
  | .tool .handoffRenew env args =>
      Names args id k t ∧ ∃ h, (Work.transaction (handoffRenew env args) s).1 = .ok h
  | .tool .handoffRelease env args =>
      Names args id k t ∧ ∃ h, (Work.transaction (handoffRelease env args) s).1 = .ok h
  | .tool .runAdvance env args =>
      Names args id k t ∧ ∃ h, s.handoff id = some h ∧
        (s.after (.tool .runAdvance env args)).handoff id ≠ some h
  | _ => False

/-- A call carries the token of a lease. -/
def Call.Carries (t : String) : Call → Prop
  | .tool .handoffRenew _ args | .tool .handoffRelease _ args | .tool .runAdvance _ args =>
      argText args "lease_token" = some t
  | _ => False

/-- A call is one of those that take a handoff from its holder: a claim, a release, a completion,
a cancellation or a retry. -/
def Call.Ends : Call → Prop
  | .tool .handoffClaim _ _ | .tool .handoffRelease _ _ | .tool .runAdvance _ _
  | .tool .runCancel _ _ | .tool .handoffRetry _ _ => True
  | _ => False

omit [FloatText] [FloatRead] [Digest] [IsoTime] [JsonSchema] in
lemma Names.unique {args : Map} {id k t id' k' t' : String} (h : Names args id k t)
    (h' : Names args id' k' t') : id = id' ∧ k = k' ∧ t = t' :=
  ⟨Option.some.inj (h.1.symm.trans h'.1), Option.some.inj (h.2.1.symm.trans h'.2.1),
    Option.some.inj (h.2.2.symm.trans h'.2.2)⟩

/-- What a call under a token changes, its holder changes. -/
lemma heldBy_of_carries {s : Store} {c : Call} {id t : String} {h : Handoff} (hcarries : c.Carries t)
    (hrow : s.handoff id = some h) (hchanged : (s.after c).handoff id ≠ some h) :
    ∃ k, h.HeldBy k t := by
  have hstep := handoff_step s c id
  rw [hrow] at hstep
  generalize (s.after c).handoff id = behind at hstep hchanged
  cases hstep with
  | stays => exact absurd rfl hchanged
  | claimed => cases hcarries
  | @renewed env args _ consumer token expires now hnames hheld =>
      exact ⟨consumer, Option.some.inj (hnames.2.2.symm.trans hcarries) ▸ hheld⟩
  | @released env args _ consumer token now error hnames hheld =>
      exact ⟨consumer, Option.some.inj (hnames.2.2.symm.trans hcarries) ▸ hheld⟩
  | @completed env args _ c now hnames hheld hnow hlive =>
      exact ⟨c.consumerId, Option.some.inj (hnames.2.2.symm.trans hcarries) ▸ hheld⟩
  | cancelled => cases hcarries
  | reopened => cases hcarries

/-- A completion is that of a live lease. -/
lemma liveAt_of_completes {s : Store} {env : Env} {args : Map} {id : String} {h : Handoff}
    (hrow : s.handoff id = some h)
    (hchanged : (s.after (.tool .runAdvance env args)).handoff id ≠ some h) :
    ∃ k t now, Names args id k t ∧ h.HeldBy k t ∧ nowIso env = .ok now ∧ h.LiveAt now := by
  have hstep := handoff_step s (.tool .runAdvance env args) id
  rw [hrow] at hstep
  generalize (s.after (.tool .runAdvance env args)).handoff id = behind at hstep hchanged
  cases hstep with
  | stays => exact absurd rfl hchanged
  | @completed _ _ _ c now hnames hheld hnow hlive =>
      exact ⟨c.consumerId, c.leaseToken, now, hnames, hheld, hnow, hlive⟩

/-- A handoff is renewed, released or completed by who holds it. -/
lemma heldBy_of_uses {s : Store} {id k t : String} {c : Call} (h : s.Uses id k t c) :
    s.HeldBy id k t := by
  unfold Store.Uses at h
  split at h
  next env args =>
    obtain ⟨hnames, result, hok⟩ := h
    obtain ⟨id', row, k', t', _, _, hrow, hnames', hheld, -⟩ :=
      handoffRenew_ok (Work.transaction_ok (Prod.ext hok rfl))
    obtain ⟨rfl, rfl, rfl⟩ := hnames.unique hnames'
    exact ⟨row, hrow, hheld⟩
  next env args =>
    obtain ⟨hnames, result, hok⟩ := h
    obtain ⟨id', row, k', t', _, _, hrow, hnames', hheld, -⟩ :=
      handoffRelease_ok (Work.transaction_ok (Prod.ext hok rfl))
    obtain ⟨rfl, rfl, rfl⟩ := hnames.unique hnames'
    exact ⟨row, hrow, hheld⟩
  next env args =>
    obtain ⟨hnames, row, hrow, hchanged⟩ := h
    obtain ⟨k', t', now, hnames', hheld, -, -⟩ := liveAt_of_completes hrow hchanged
    obtain ⟨-, rfl, rfl⟩ := hnames.unique hnames'
    exact ⟨row, hrow, hheld⟩
  next => exact h.elim

/-- Where a handoff is taken from its holder, only a claim gives it to another, under the token of
the claim. -/
lemma token_of_ends {s : Store} {c : Call} {id k t : String} (hends : c.Ends)
    (hchanged : (s.after c).handoff id ≠ s.handoff id) (hheld : (s.after c).HeldBy id k t) :
    c.leaseToken = some t := by
  obtain ⟨row, hrow, hheld⟩ := hheld
  have hstep := handoff_step s c id
  rw [hrow] at hstep hchanged
  generalize s.handoff id = before at hstep hchanged
  cases hstep with
  | stays => exact absurd rfl hchanged
  | made hfree => exact absurd hheld (not_heldBy hfree k t)
  | claimed hconsumer =>
      rw [Call.leaseToken, (heldBy_lease hconsumer hheld).2]
  | renewed => exact hends.elim
  | released => exact absurd hheld (not_heldBy (by simp [Handoff.release, Handoff.unleased]) k t)
  | @completed env args old c now hnames hold hnow hlive =>
      exact absurd hheld (not_heldBy (complete_not_leased old c now) k t)
  | cancelled => exact absurd hheld (not_heldBy (by simp [Handoff.cancel, Handoff.unleased]) k t)
  | reopened => exact absurd hheld (not_heldBy (by simp [Handoff.reopen, Handoff.unleased]) k t)

/-- **Leases are exclusive.** In every run of calls whose claims get fresh tokens:

* at any time the calls that can renew, release or complete a handoff are those of one consumer
  under one token;
* a completion is made under the last claim of the handoff, and strictly before the end of its
  lease;
* once a call has taken the handoff from its holder (a claim by another, a release, a completion,
  a cancellation, a retry), no call that carries a token claimed before changes it. -/
theorem lease_exclusive (calls : List Call) (hfresh : (leaseTokens calls).Nodup) (id : String) :
    let s := run Store.after Store.empty calls
    (∀ c d k t k' t', s.Uses id k t c → s.Uses id k' t' d → k = k' ∧ t = t') ∧
    (∀ env args k t, s.Uses id k t (.tool .runAdvance env args) →
      (claims id Store.empty calls).getLast? = some (k, t) ∧
      ∃ h now, s.handoff id = some h ∧ nowIso env = .ok now ∧ h.LiveAt now) ∧
    (∀ before c rest, calls = before ++ c :: rest → c.Ends →
      ((run Store.after Store.empty before).after c).handoff id ≠
        (run Store.after Store.empty before).handoff id →
      ∀ k t, (k, t) ∈ claims id Store.empty before → ∀ d, Call.Carries t d →
        ∀ h, s.handoff id = some h → (s.after d).handoff id = some h) := by
  refine ⟨?_, ?_, ?_⟩
  · intro c d k t k' t' hc hd
    obtain ⟨h, hrow, hheld⟩ := heldBy_of_uses hc
    obtain ⟨h', hrow', hheld'⟩ := heldBy_of_uses hd
    obtain rfl : h = h' := Option.some.inj (hrow.symm.trans hrow')
    exact hheld.unique hheld'
  · intro env args k t huses
    constructor
    · rcases held_of_run (heldBy_of_uses huses) with hlast | ⟨-, h, hrow, -⟩
      · exact hlast
      · cases hrow
    · obtain ⟨-, h, hrow, hchanged⟩ := huses
      obtain ⟨-, -, now, -, -, hnow, hlive⟩ := liveAt_of_completes hrow hchanged
      exact ⟨h, now, hrow, hnow, hlive⟩
  · rintro before c rest rfl hends hchanged k t hclaimed d hcarries h hrow
    by_contra hmoved
    have hearlier := mem_leaseTokens_of_claims hclaimed
    rw [leaseTokens, List.filterMap_append, List.nodup_append] at hfresh
    -- the token is not given again behind its claim
    have hgone : t ∉ leaseTokens (c :: rest) := fun hagain => hfresh.2.2 t hearlier t hagain rfl
    obtain ⟨k', hheld⟩ := heldBy_of_carries hcarries hrow hmoved
    rw [Calls.run_append, Calls.run_cons] at hrow
    rcases held_of_run ⟨h, hrow, hheld⟩ with hlast | ⟨-, hbehind⟩
    · obtain ⟨e, he, htoken⟩ :=
        List.mem_filterMap.mp (mem_leaseTokens_of_claims (List.mem_of_getLast? hlast))
      exact hgone (List.mem_filterMap.mpr ⟨e, List.mem_cons_of_mem _ he, htoken⟩)
    · have htoken := token_of_ends hends hchanged hbehind
      exact hgone (List.mem_filterMap.mpr ⟨c, List.mem_cons_self, htoken⟩)

end Leases

/-! ### A handoff that changes hands -/

/-- The lease of a first consumer is over when a second one claims the handoff. -/
def reclaimed : List Call :=
  sampleStart .agent ++ [sampleClaim 1000 "alice" "first", sampleClaim 9000 "bob" "second"]

/-- Behind the second claim the token of the first changes nothing. -/
theorem lease_reclaimed :
    letI := FloatText.fields
    letI := asWritten
    letI := oneName
    letI := IsoTime.utc
    letI := lenient
    claims "soh_h" Store.empty reclaimed = [("alice", "first"), ("bob", "second")] ∧
      ∀ d, Call.Carries "first" d → ∀ h, (run Store.after Store.empty reclaimed).handoff "soh_h" = some h →
        ((run Store.after Store.empty reclaimed).after d).handoff "soh_h" = some h := by
  refine ⟨by decide +kernel, ?_⟩
  have hexclusive := @lease_exclusive FloatText.fields asWritten oneName IsoTime.utc lenient reclaimed
    (by decide) "soh_h"
  refine hexclusive.2.2 (sampleStart .agent ++ [sampleClaim 1000 "alice" "first"])
    (sampleClaim 9000 "bob" "second") [] rfl trivial ?_ "alice" "first" ?_
  · decide +kernel
  · decide +kernel

end Sop

end McpSurfaces
