import McpSurfaces.Foundation.Calls
import McpSurfaces.Sop.HandoffMoves
import McpSurfaces.Sop.ValueRefs

/-!
The completion of an action by `sop_action_resolve`: recorded by a first call, replayed by the same
later ones, and defended against different ones.

* `resolutionOf`: the arguments that pass the checks of the call, and `resolveAction` what it does
  with them.
* `KeepsDone`: no call changes the row of an action that is completed (`keepsDone_after`).
* **`completesOnce_iff`**: so a first call records an action, for good, exactly if the completion
  has no message beside its success and its result reads back as it was.
-/

namespace McpSurfaces

namespace Sop

open EventLedger (Digest)
open Lists
open Work (Guarantees MayDo bind_ok ofExcept_ok ofExcept_bind_ok store_bind_ok write_bind_ok)
open Calls

variable [FloatText] [FloatRead] [Digest] [IsoTime]

/-! ### Completions -/

/-- The completion of an action, as it is supplied. -/
structure Resolution where
  actionId : String
  completionKey : String
  outcome : Outcome
  operationRef : String
  result : Map
  resultRef : Value
  errorMessage : Option String
deriving DecidableEq

namespace Resolution

/-- What is digested of a completion. -/
def json (r : Resolution) : Value :=
  actionCompletion r.completionKey r.outcome.text r.operationRef (.object r.result) r.resultRef
    r.errorMessage

/-- What the columns of its row hold. -/
def stored (r : Resolution) : Value :=
  actionCompletion r.completionKey r.outcome.text r.operationRef (column (.object r.result))
    r.resultRef (if r.outcome = .failed then r.errorMessage else none)

/-- Two completions are the same, up to the order of the keys in their results. -/
def Same (r r' : Resolution) : Prop := r.json.canonicalize = r'.json.canonicalize

end Resolution

/-- The checks of the arguments of `sop_action_resolve`. -/
def resolutionOf (args : Map) : Except Stop Resolution := do
  let actionId ← requiredString (args.get "action_id") "sop_requires_action_id" 512
  let completionKey ← requiredString (args.get "completion_key") "sop_requires_completion_key" 512
  let outcome ← outcomeOf args
  let operationRef ← requiredString (args.get "operation_ref") "sop_requires_operation_ref" 2048
  let (result, resultRef, errorMessage) ← resultOf args outcome
  return { actionId, completionKey, outcome, operationRef, result, resultRef, errorMessage }

/-- A row that is completed. -/
def Action.resolved (a : Action) (r : Resolution) (now : String) : Action :=
  a.complete r.outcome r.completionKey (fingerprint r.json) r.operationRef (.object r.result)
    r.resultRef r.errorMessage now

/-- What the call does with the completion. -/
def resolveAction (env : Env) (r : Resolution) : Db (String × Bool × Bool) := do
  let a ← getAction r.actionId
  let run := (← Work.store).run a.runId
  match a.completionFingerprint with
  | some existing =>
      if a.completionKey = some r.completionKey ∧ existing = fingerprint r.json then
        return (a.runId, true, decide (run.map (·.status) = some .cancelled))
      throw (refusalOf "sop_action_completion_conflict" r.actionId)
  | none => match run with
    | none => throw (refusalOf "sop_run_not_found" a.runId)
    | some run => do
        let late := decide (a.status = .cancelled ∧ run.status = .cancelled)
        if a.status ≠ .pending ∧ ¬ late then throw (refusalOf "sop_action_not_pending" r.actionId)
        let now ← Work.ofExcept (nowIso env)
        Work.write fun s => s.updateActions (·.actionId = r.actionId) (·.resolved r now)
        let _ ← getAction r.actionId
        return (a.runId, false, late)

omit [FloatText] [FloatRead] [Digest] [IsoTime] in
lemma ofExcept_bind_of_ok {α β : Type} {x : Except Stop α} {a : α} (h : x = .ok a) (f : α → Db β) :
    Work.ofExcept x >>= f = f a := by
  rw [h]
  rfl

/-- The call behind its checks. -/
lemma actionRecord_eq {env : Env} {args : Map} {r : Resolution} (h : resolutionOf args = .ok r) :
    actionRecord env args = resolveAction env r := by
  obtain ⟨actionId, hid, h⟩ := bind_eq_ok h
  obtain ⟨completionKey, hkey, h⟩ := bind_eq_ok h
  obtain ⟨outcome, houtcome, h⟩ := bind_eq_ok h
  obtain ⟨operationRef, hoperation, h⟩ := bind_eq_ok h
  obtain ⟨result, hresult, h⟩ := bind_eq_ok h
  cases h
  unfold actionRecord
  rw [ofExcept_bind_of_ok hid, ofExcept_bind_of_ok hkey, ofExcept_bind_of_ok houtcome,
    ofExcept_bind_of_ok hoperation, ofExcept_bind_of_ok hresult]
  rfl

/-! ### Rows that are read -/

/-- What an action that was read shares with its row. -/
structure ActionRead (row a : Action) : Prop where
  runId : a.runId = Str.trim row.runId
  status : a.status = row.status
  completionKey : a.completionKey = optionalText row.completionKey
  completionFingerprint : a.completionFingerprint = optionalText row.completionFingerprint

section

omit [FloatRead] [IsoTime]

lemma hydrateAction_ok {row a : Action} (h : hydrateAction row = .ok a) :
    ActionRead row a ∧ row.result.asObject ≠ none ∧
      ∃ resultRef, normalizeValueRef (some row.resultRef) "sop_result_ref" = .ok resultRef ∧
        checkActionCompletion row.status (optionalText row.completionKey)
          (optionalText row.completionFingerprint) (optionalText row.operationRef) row.result
          resultRef (optionalText row.errorMessage) = .ok () := by
  unfold hydrateAction at h
  obtain ⟨actionId, -, h⟩ := bind_eq_ok h
  obtain ⟨runId, hrun, h⟩ := bind_eq_ok h
  obtain ⟨stepId, -, h⟩ := bind_eq_ok h
  obtain ⟨occurrenceKey, -, h⟩ := bind_eq_ok h
  obtain ⟨surfaceId, -, h⟩ := bind_eq_ok h
  obtain ⟨toolName, -, h⟩ := bind_eq_ok h
  obtain ⟨-, h⟩ := guard_ok h
  obtain ⟨_, -, h⟩ := bind_eq_ok h
  obtain ⟨request, -, h⟩ := bind_eq_ok h
  obtain ⟨-, h⟩ := guard_ok h
  obtain ⟨-, h⟩ := guard_ok h
  obtain ⟨hresult, h⟩ := guard_ok h
  obtain ⟨resultRef, href, h⟩ := bind_eq_ok h
  obtain ⟨_, hcompletion, h⟩ := bind_eq_ok h
  cases h
  exact ⟨⟨(requiredText_ok hrun).1, rfl, rfl, rfl⟩, hresult, resultRef, href, hcompletion⟩

/-- A row that is open has no completion. -/
lemma none_of_open {row a : Action} (h : hydrateAction row = .ok a)
    (hopen : row.status = .pending ∨ row.status = .cancelled) :
    optionalText row.completionFingerprint = none := by
  obtain ⟨-, -, resultRef, -, hcheck⟩ := hydrateAction_ok h
  unfold checkActionCompletion at hcheck
  split at hcheck
  next recorded key operation hrecorded hkey hoperation =>
    rcases hopen with hopen | hopen <;> simp [hopen] at hcheck
  next hnone _ _ => exact hnone
  next => cases hcheck

end

/-! ### Rows that were just completed -/

namespace Resolution

/-- The columns of its row hold what was digested. -/
def Kept (r : Resolution) : Prop :=
  (column (.object r.result)).asObject ≠ none ∧ fingerprint r.json = fingerprint r.stored

/-- The texts and the reference of a completion were read. -/
structure IsRead (r : Resolution) : Prop where
  completionKey : optionalText (some r.completionKey) = some r.completionKey
  operationRef : optionalText (some r.operationRef) = some r.operationRef
  errorMessage : optionalText r.errorMessage = r.errorMessage
  resultRef : ∀ field, normalizeValueRef (some (column r.resultRef)) field = .ok r.resultRef
  failed : r.outcome = .failed → r.errorMessage ≠ none

end Resolution

omit [Digest] [IsoTime] in
lemma isRead_of_resolutionOf {args : Map} {r : Resolution} (h : resolutionOf args = .ok r) :
    r.IsRead := by
  obtain ⟨actionId, -, h⟩ := bind_eq_ok h
  obtain ⟨completionKey, hkey, h⟩ := bind_eq_ok h
  obtain ⟨outcome, -, h⟩ := bind_eq_ok h
  obtain ⟨operationRef, hoperation, h⟩ := bind_eq_ok h
  obtain ⟨⟨result, resultRef, errorMessage⟩, hresult, h⟩ := bind_eq_ok h
  cases h
  unfold resultOf at hresult
  obtain ⟨_, -, hresult⟩ := bind_eq_ok hresult
  split at hresult
  · obtain ⟨_, href, hresult⟩ := bind_eq_ok hresult
    obtain ⟨_, hmessage, hresult⟩ := bind_eq_ok hresult
    obtain ⟨hfailed, hresult⟩ := guard_ok hresult
    cases hresult
    refine ⟨optionalText_of_read (requiredString_ok hkey),
      optionalText_of_read (requiredString_ok hoperation), ?_, normalizeValueRef_column href,
      fun hout hnone => hfailed ⟨hout, hnone⟩⟩
    unfold optionalBoundedString at hmessage
    split at hmessage
    · cases hmessage
      rfl
    next text htext =>
      split_ifs at hmessage
      cases hmessage
      exact optionalText_of_read htext
  · cases hresult

omit [IsoTime] in
/-- **A row that was just completed reads exactly if its columns hold what was digested.** -/
lemma exists_hydrateAction_resolved {row a : Action} {r : Resolution}
    (h : hydrateAction row = .ok a) (hread : r.IsRead)
    (hdigest : ∀ v : Value, optionalText (some (fingerprint v)) = some (fingerprint v))
    (now : String) : (∃ b, hydrateAction (row.resolved r now) = .ok b) ↔ r.Kept := by
  have hmessage : optionalText (if r.outcome = .failed then r.errorMessage else none) =
      if r.outcome = .failed then r.errorMessage else none := by
    split_ifs
    · exact hread.errorMessage
    · rfl
  have hcheck : checkActionCompletion r.outcome.action (optionalText (some r.completionKey))
      (optionalText (some (fingerprint r.json))) (optionalText (some r.operationRef))
      (column (.object r.result)) r.resultRef
      (optionalText (if r.outcome = .failed then r.errorMessage else none)) =
      if fingerprint r.json ≠ fingerprint r.stored then
        .error (refusal "sop_action_completion_fingerprint_mismatch") else .ok () := by
    rw [hread.completionKey, hdigest, hread.operationRef, hmessage]
    unfold checkActionCompletion Resolution.stored
    cases r.outcome <;> rfl
  constructor
  · rintro ⟨b, hb⟩
    obtain ⟨-, hobject, resultRef, href, hcompletion⟩ := hydrateAction_ok hb
    refine ⟨hobject, ?_⟩
    cases (hread.resultRef _).symm.trans href
    have hsame := hcheck.symm.trans hcompletion
    split_ifs at hsame with hdiffers
    exact not_not.mp hdiffers
  · rintro ⟨hobject, hsame⟩
    unfold hydrateAction at h
    obtain ⟨actionId, hid, h⟩ := bind_eq_ok h
    obtain ⟨runId, hrun, h⟩ := bind_eq_ok h
    obtain ⟨stepId, hstep, h⟩ := bind_eq_ok h
    obtain ⟨occurrenceKey, hoccurrence, h⟩ := bind_eq_ok h
    obtain ⟨surfaceId, hsurface, h⟩ := bind_eq_ok h
    obtain ⟨toolName, htool, h⟩ := bind_eq_ok h
    obtain ⟨harguments, h⟩ := guard_ok h
    obtain ⟨_, hbound, h⟩ := bind_eq_ok h
    obtain ⟨request, hrequest, h⟩ := bind_eq_ok h
    obtain ⟨hidentity, h⟩ := guard_ok h
    obtain ⟨hfingerprint, h⟩ := guard_ok h
    unfold hydrateAction
    refine exists_bind_ok hid (exists_bind_ok hrun (exists_bind_ok hstep (exists_bind_ok hoccurrence
      (exists_bind_ok hsurface (exists_bind_ok htool (exists_guard_ok harguments
        (exists_bind_ok hbound (exists_bind_ok hrequest ?_))))))))
    refine exists_guard_ok hidentity (exists_guard_ok hfingerprint (exists_guard_ok hobject ?_))
    exact exists_bind_ok (hread.resultRef _)
      (exists_bind_ok (hcheck.trans (if_neg (not_not.mpr hsame))) ⟨_, rfl⟩)

/-! ### The call -/

section

omit [FloatRead] [IsoTime]

/-- An action that is read before the rest. -/
lemma exec_getAction_bind {α : Type} {id : String} {f : Action → Db α} {s : Store} {row : Action}
    (hrow : s.action id = some row) :
    Work.exec (getAction id >>= f) s = Work.exec (Work.ofExcept (hydrateAction row) >>= f) s := by
  rw [Work.exec_bind, Work.exec_bind, getAction, Work.exec_bind, Work.exec_store]
  dsimp only
  rw [hrow]

lemma getAction_bind_ok {α : Type} {id : String} {f : Action → Db α} {s t : Store} {answer : α}
    (hok : Work.exec (getAction id >>= f) s = (.ok answer, t)) :
    ∃ row a, s.action id = some row ∧ hydrateAction row = .ok a ∧
      Work.exec (f a) s = (.ok answer, t) := by
  cases hrow : s.action id with
  | none =>
      rw [Work.exec_bind, getAction, Work.exec_bind, Work.exec_store] at hok
      dsimp only at hok
      rw [hrow] at hok
      cases hok
  | some row =>
      rw [exec_getAction_bind hrow] at hok
      obtain ⟨a, hread, hok⟩ := ofExcept_bind_ok hok
      exact ⟨row, a, rfl, hread, hok⟩

end

omit [FloatText] [FloatRead] [Digest] [IsoTime] in
/-- An update of actions changes the row of each as it says. -/
lemma Store.action_updateActions {s : Store} {p : Action → Prop} [DecidablePred p]
    {set : Action → Action} (hkey : ∀ a, (set a).actionId = a.actionId) (id : String) :
    (s.updateActions p set).action id = (s.action id).map fun a => if p a then set a else a :=
  Table.row_updateWhere (fun a _ => hkey a) id

/-- The store behind a completion. -/
def Store.resolve (s : Store) (r : Resolution) (now : String) : Store :=
  s.updateActions (·.actionId = r.actionId) (·.resolved r now)

omit [IsoTime] in
lemma Store.action_resolve {s : Store} {r : Resolution} {row : Action}
    (hrow : s.action r.actionId = some row) (now : String) :
    (s.resolve r now).action r.actionId = some (row.resolved r now) := by
  have hkey : ∀ a : Action, (a.resolved r now).actionId = a.actionId := fun _ => rfl
  rw [Store.resolve, Store.action_updateActions hkey, hrow, Option.map_some,
    if_pos (Table.key_of_row hrow)]

/-- A completion that is recorded already is replayed, or defended. -/
lemma exec_resolveAction_recorded (env : Env) {s : Store} {r : Resolution} {row a : Action}
    {recorded : String} (hrow : s.action r.actionId = some row) (hread : hydrateAction row = .ok a)
    (hrecorded : a.completionFingerprint = some recorded) :
    Work.exec (resolveAction env r) s =
      if a.completionKey = some r.completionKey ∧ recorded = fingerprint r.json then
        (.ok (a.runId, true, decide ((s.run a.runId).map (·.status) = some .cancelled)), s)
      else (.error (refusalOf "sop_action_completion_conflict" r.actionId), s) := by
  rw [resolveAction, exec_getAction_bind hrow, ofExcept_bind_of_ok hread, Work.exec_bind,
    Work.exec_store]
  dsimp only
  rw [hrecorded]
  dsimp only
  split_ifs <;> rfl

/-- The action of a row is open to a completion: it is pending, or was cancelled with its run. -/
def Store.OpenAction (s : Store) (row : Action) : Prop :=
  row.status = .pending ∨
    row.status = .cancelled ∧ (s.run (Str.trim row.runId)).map (·.status) = some .cancelled

/-- The row of an action is read, and its run is there. -/
def Store.Readable (s : Store) (row : Action) : Prop :=
  (∃ a, hydrateAction row = .ok a) ∧ s.run (Str.trim row.runId) ≠ none

/-- A first completion of an open action is recorded, if it is read behind. -/
lemma exec_resolveAction_open {env : Env} {s : Store} {r : Resolution} {row : Action} {now : String}
    (hrow : s.action r.actionId = some row) (hopen : s.OpenAction row) (hreadable : s.Readable row)
    (hnow : nowIso env = .ok now) :
    Work.exec (resolveAction env r) s =
      ((hydrateAction (row.resolved r now)).map fun _ =>
        (Str.trim row.runId, false, decide (row.status = .cancelled)), s.resolve r now) := by
  obtain ⟨⟨a, hread⟩, hrun⟩ := hreadable
  obtain ⟨run, hrun⟩ := Option.ne_none_iff_exists'.mp hrun
  have hfrom := (hydrateAction_ok hread).1
  have hnone := none_of_open hread (hopen.imp_right And.left)
  rw [resolveAction, exec_getAction_bind hrow, ofExcept_bind_of_ok hread, Work.exec_bind,
    Work.exec_store]
  dsimp only
  rw [hfrom.completionFingerprint, hnone, hfrom.runId, hrun, hfrom.status]
  dsimp only
  have hlate : decide (row.status = .cancelled ∧ run.status = .cancelled) =
      decide (row.status = .cancelled) := by
    rcases hopen with hpending | ⟨hcancelled, hgone⟩
    · rw [hpending]
      rfl
    · rw [hrun, Option.map_some] at hgone
      rw [hcancelled, Option.some.inj hgone]
      rfl
  have hstatus : ¬ (row.status ≠ .pending ∧ ¬ decide (row.status = .cancelled) = true) := by
    rintro ⟨hpending, hlive⟩
    rcases hopen with hopen | hopen
    · exact hpending hopen
    · exact hlive (decide_eq_true hopen.1)
  rw [hlate, if_neg hstatus, ofExcept_bind_of_ok hnow, Work.exec_bind, Work.exec_write]
  dsimp only
  change Work.exec (getAction r.actionId >>= _) (s.resolve r now) = _
  rw [exec_getAction_bind (Store.action_resolve hrow now), Work.exec_bind, Work.exec_ofExcept]
  cases hydrateAction (row.resolved r now) with
  | ok b => rfl
  | error stop => rfl

/-- What a call leaves: it is a replay, or an action without a completion gets one. -/
lemma actionRecord_ok {env : Env} {args : Map} {s t : Store} {answer : String × Bool × Bool}
    (hok : Work.exec (actionRecord env args) s = (.ok answer, t)) :
    t = s ∧ answer.2.1 = true ∨
      ∃ r row now, s.action r.actionId = some row ∧ (∃ a, hydrateAction row = .ok a) ∧
      optionalText row.completionFingerprint = none ∧ s.run (Str.trim row.runId) ≠ none ∧
      resolutionOf args = .ok r ∧ t = s.resolve r now ∧
      (∃ b, hydrateAction (row.resolved r now) = .ok b) := by
  obtain ⟨r, hr⟩ : ∃ r, resolutionOf args = .ok r := by
    obtain ⟨actionId, hid, hok⟩ := ofExcept_bind_ok hok
    obtain ⟨completionKey, hkey, hok⟩ := ofExcept_bind_ok hok
    obtain ⟨outcome, houtcome, hok⟩ := ofExcept_bind_ok hok
    obtain ⟨operationRef, hoperation, hok⟩ := ofExcept_bind_ok hok
    obtain ⟨result, hresult, -⟩ := ofExcept_bind_ok hok
    exact exists_bind_ok hid (exists_bind_ok hkey (exists_bind_ok houtcome
      (exists_bind_ok hoperation (exists_bind_ok hresult ⟨_, rfl⟩))))
  rw [actionRecord_eq hr, resolveAction] at hok
  obtain ⟨row, a, hrow, hread, hok⟩ := getAction_bind_ok hok
  have hfrom := (hydrateAction_ok hread).1
  have hok := store_bind_ok hok
  dsimp only at hok
  split at hok
  · split_ifs at hok
    · cases hok
      exact .inl ⟨rfl, rfl⟩
    · cases hok
  next hnone =>
    split at hok
    · cases hok
    next run hrun =>
      obtain ⟨-, hok⟩ := Work.guard_ok hok
      obtain ⟨now, -, hok⟩ := ofExcept_bind_ok hok
      have hok := write_bind_ok hok
      change Work.exec (getAction r.actionId >>= _) (s.resolve r now) = _ at hok
      obtain ⟨written, b, hwritten, hb, hok⟩ := getAction_bind_ok hok
      cases hok
      rw [Store.action_resolve hrow, Option.some.injEq] at hwritten
      rw [hfrom.completionFingerprint] at hnone
      rw [hfrom.runId] at hrun
      have hthere : s.run (Str.trim row.runId) ≠ none := by
        rw [hrun]
        nofun
      exact .inr ⟨r, row, now, hrow, ⟨a, hread⟩, hnone, hthere, hr, rfl, b, hwritten ▸ hb⟩

/-! ### Completed rows -/

/-- The action is completed. -/
def Action.Done (a : Action) : Prop :=
  a.status ≠ .pending ∧ optionalText a.completionFingerprint ≠ none

/-- The rows of completed actions stay. -/
def KeepsDone (s t : Store) : Prop :=
  ∀ id row, s.action id = some row → row.Done → t.action id = some row

instance : Std.Refl KeepsDone := ⟨fun _ _ _ hrow _ => hrow⟩

instance : IsTrans Store KeepsDone :=
  ⟨fun _ _ _ hst htu id row hrow hdone => htu id row (hst id row hrow hdone) hdone⟩

omit [IsoTime] in
lemma writes_keepsDone : Writes KeepsDone where
  run _ _ _ _ _ _ _ _ _ hrow _ := hrow
  handoff _ _ _ _ _ _ _ _ _ _ hrow _ := hrow
  saved _ _ _ _ _ hrow _ := hrow
  event _ _ _ _ _ _ hrow _ := hrow
  action _ _ _ _ _ _ _ _ _ hrow _ := Table.row_append_of_some _ hrow

section

omit [FloatText] [FloatRead] [Digest] [IsoTime]

/-- An update of what is not completed leaves what is. -/
lemma keepsDone_updateActions {s : Store} {p : Action → Prop} [DecidablePred p]
    {set : Action → Action} (hkey : ∀ a, (set a).actionId = a.actionId)
    (hopen : ∀ id row, s.action id = some row → row.Done → ¬ p row) :
    KeepsDone s (s.updateActions p set) := by
  intro id row hrow hdone
  rw [Store.action_updateActions hkey, hrow, Option.map_some, if_neg (hopen id row hrow hdone)]

lemma cancelWork_keepsDone (s : Store) (runId error now : String) :
    KeepsDone s (s.cancelWork runId error now) := fun id row hrow hdone =>
  (keepsDone_updateActions (fun _ => rfl) fun _ _ _ hdone hpending => hdone.1 hpending.2 :
    KeepsDone s (s.updateActions (fun a => a.runId = runId ∧ a.status = .pending)
      (·.cancel error now))) id row hrow hdone

end

lemma actionRecord_keepsDone {env : Env} {args : Map} {s t : Store}
    {answer : String × Bool × Bool} (hok : Work.exec (actionRecord env args) s = (.ok answer, t)) :
    KeepsDone s t := by
  rcases actionRecord_ok hok with ⟨rfl, -⟩ | ⟨r, row, now, hrow, -, hnone, -, -, rfl, -⟩
  · exact refl_of KeepsDone t
  · refine keepsDone_updateActions (fun _ => rfl) fun id other hother hdone hid => ?_
    obtain rfl : id = r.actionId := (Table.key_of_row hother).symm.trans hid
    obtain rfl : row = other := Option.some.inj (hrow.symm.trans hother)
    exact hdone.2 hnone

/-- **No call changes the row of a completed action.** -/
theorem keepsDone_after [JsonSchema] (s : Store) (c : Call) : KeepsDone s (s.after c) := by
  cases c with
  | templates templates => exact fun _ _ hrow _ => hrow
  | tool tool env args =>
      rcases after_tool s tool env args with hsame | hok
      · rw [hsame]
        exact refl_of KeepsDone s
      · generalize s.after (.tool tool env args) = t at hok ⊢
        cases tool with
        | runStart =>
            obtain ⟨r, hok⟩ := drop_ok hok
            exact (writes_keepsDone.runStart env args).of_exec hok
        | runRefresh =>
            obtain ⟨r, hok⟩ := drop_ok hok
            exact (writes_keepsDone.runRefresh env args).of_exec hok
        | runAdvance =>
            obtain ⟨r, hok⟩ := drop_ok hok
            obtain ⟨c, u, -, hkept, rfl | ⟨row, now, -, -, -, -, rfl⟩⟩ :=
              runAdvance_ok writes_keepsDone hok
            · exact hkept
            · exact hkept
        | handoffRetry =>
            obtain ⟨r, hok⟩ := drop_ok hok
            obtain ⟨u, hreopened, hkept⟩ := handoffRetry_ok writes_keepsDone hok
            refine trans_of KeepsDone (fun id row hrow _ => ?_) hkept
            rcases hreopened with rfl | ⟨runId, v, -, hv, hu⟩
            · exact hrow
            · rcases hv with rfl | ⟨e, -, -, -, -, rfl⟩ <;>
                rcases hu with rfl | ⟨id', marker, now, rfl⟩ <;> exact hrow
        | actionRecord =>
            obtain ⟨r, hok⟩ := drop_ok hok
            exact actionRecord_keepsDone hok
        | actionReconcile => exact (writes_keepsDone.actionReconcile env args).of_exec hok
        | runCancel =>
            obtain ⟨r, hok⟩ := drop_ok hok
            exact (writes_keepsDone.runCancel cancelWork_keepsDone env args).of_exec hok
        | handoffClaim =>
            obtain ⟨r, hok⟩ := drop_ok hok
            rcases handoffClaim_ok hok with rfl | ⟨id', consumer, expires, now, -, -, rfl⟩
            · exact refl_of KeepsDone t
            · exact fun _ _ hrow _ => hrow
        | handoffRenew =>
            obtain ⟨r, hok⟩ := drop_ok hok
            obtain ⟨id', row, consumer, token, expires, now, -, -, -, rfl⟩ := handoffRenew_ok hok
            exact fun _ _ hrow _ => hrow
        | handoffRelease =>
            obtain ⟨r, hok⟩ := drop_ok hok
            obtain ⟨id', row, consumer, token, error, now, -, -, -, rfl⟩ := handoffRelease_ok hok
            exact fun _ _ hrow _ => hrow
        | outboxConsumerRegister =>
            obtain ⟨r, hok⟩ := drop_ok hok
            rcases (outboxConsumerRegister_effect env args).of_exec hok with rfl | ⟨r, -, -, rfl⟩
            · exact refl_of KeepsDone t
            · exact fun _ _ hrow _ => hrow
        | outboxAck =>
            obtain ⟨r, hok⟩ := drop_ok hok
            rcases outboxAck_ok hok with rfl | ⟨r, -, -, e, requirement, -, -, -, -, rfl⟩
            · exact refl_of KeepsDone t
            · exact fun _ _ hrow _ => hrow
        | outboxCompact =>
            rcases (outboxCompact_effect env args).of_exec hok with rfl | ⟨cutoff, now, rfl⟩
            · exact refl_of KeepsDone t
            · exact fun _ _ hrow _ => hrow

/-! ### Completing once -/

namespace Resolution

/-- The result reads back as it was, up to the order of its keys. -/
def ReadsBack (r : Resolution) : Prop :=
  (column (.object r.result)).canonicalize = (Value.object r.result).canonicalize

omit [FloatText] [FloatRead] [Digest] [IsoTime] in
/-- A field of a completion that is digested. -/
lemma get_json (r : Resolution) (key : String) :
    r.json.canonicalize.get key = (r.json.get key).map Value.canonicalize :=
  Value.get_canonicalize (by simp [OrderedMap.keys]) key

omit [Digest] [IsoTime] in
lemma get_stored (r : Resolution) (key : String) :
    r.stored.canonicalize.get key = (r.stored.get key).map Value.canonicalize :=
  Value.get_canonicalize (by simp [OrderedMap.keys]) key

omit [FloatRead] [IsoTime] in
/-- The digest tells completions apart. -/
lemma fingerprint_eq_iff (hsha : Function.Injective Digest.sha256) (hfloat : FloatText.Lawful)
    {v w : Value} : fingerprint v = fingerprint w ↔ v.canonicalize = w.canonicalize := by
  constructor
  · exact fun h => Value.canonicalText_injective hfloat (hsha h)
  · intro h
    rw [fingerprint, fingerprint, Value.canonicalText, Value.canonicalText, h]

omit [IsoTime] in
/-- What was digested is what the columns hold, exactly if there is no message beside a success and
the result reads back. -/
lemma kept_iff (hsha : Function.Injective Digest.sha256) (hfloat : FloatText.Lawful)
    {r : Resolution} :
    r.Kept ↔ (r.outcome = .failed ∨ r.errorMessage = none) ∧ r.ReadsBack := by
  rw [Kept, fingerprint_eq_iff hsha hfloat]
  constructor
  · rintro ⟨-, hsame⟩
    have hfield (key : String) := congrArg (fun v : Value => v.get key) hsame
    simp only [get_json, get_stored] at hfield
    have hmessage := Option.some.inj (hfield "error_message")
    have hresult := Option.some.inj (hfield "result")
    refine ⟨?_, hresult.symm⟩
    by_contra hnone
    push Not at hnone
    obtain ⟨text, htext⟩ := Option.ne_none_iff_exists'.mp hnone.2
    rw [if_neg hnone.1, htext] at hmessage
    cases hmessage
  · rintro ⟨hmessage, hresult⟩
    have hstored : (if r.outcome = .failed then r.errorMessage else none) = r.errorMessage := by
      rcases hmessage with hfailed | hnone
      · rw [if_pos hfailed]
      · rw [hnone, ite_self]
    constructor
    · intro hobject
      rw [ReadsBack] at hresult
      cases hcolumn : column (.object r.result) with
      | object fields =>
          rw [hcolumn] at hobject
          cases hobject
      | _ =>
          rw [hcolumn] at hresult
          cases hresult
    · rw [json, stored, hstored, actionCompletion, actionCompletion]
      simp only [Value.canonicalize, Value.canonicalizeFields]
      rw [ReadsBack] at hresult
      rw [hresult]
      rfl

end Resolution

section Runs

variable [JsonSchema]

lemma reachable_run {s : Store} (h : Reachable s) (calls : List Call) :
    Reachable (run Store.after s calls) := by
  induction calls generalizing s with
  | nil => exact h
  | cons c rest ih => exact ih (.call c h)

/-- The row of a completed action answers for it behind any calls: a call with the same completion
is a replay, any other is refused and changes nothing. -/
def Settled (t : Store) (r : Resolution) (done : Action) : Prop :=
  ∀ calls, (run Store.after t calls).action r.actionId = some done ∧
    ∀ env args r', resolutionOf args = .ok r' → r'.actionId = r.actionId →
      (r'.Same r → ∃ late, Work.transaction (actionRecord env args) (run Store.after t calls) =
        (.ok (Str.trim done.runId, true, late), run Store.after t calls)) ∧
      (¬ r'.Same r → Work.transaction (actionRecord env args) (run Store.after t calls) =
        (.error (refusalOf "sop_action_completion_conflict" r.actionId), run Store.after t calls))

/-- A call completes an action once and for good. -/
def CompletesOnce (s : Store) (env : Env) (args : Map) (r : Resolution) (row : Action) : Prop :=
  ∃ late now, Work.transaction (actionRecord env args) s =
      (.ok (Str.trim row.runId, false, late), s.resolve r now) ∧
    Settled (s.resolve r now) r (row.resolved r now)

omit [FloatText] [FloatRead] [Digest] [IsoTime] [JsonSchema] in
lemma completionKey_of_same {r r' : Resolution} (h : r'.Same r) :
    r'.completionKey = r.completionKey := by
  have hfield := congrArg (fun v : Value => v.get "completion_key") h
  simp only [Resolution.get_json] at hfield
  exact Value.string.inj (Option.some.inj hfield)

/-- A row that was just completed, and that reads, answers for its completion. -/
lemma settled_resolve (hsha : Function.Injective Digest.sha256) (hfloat : FloatText.Lawful)
    (hdigest : ∀ v : Value, optionalText (some (fingerprint v)) = some (fingerprint v))
    {s : Store} {r : Resolution} {row b : Action} {now : String}
    (hrow : s.action r.actionId = some row) (hread : r.IsRead)
    (hb : hydrateAction (row.resolved r now) = .ok b) :
    Settled (s.resolve r now) r (row.resolved r now) := by
  have hdone : (row.resolved r now).Done := by
    refine ⟨fun hpending => ?_, ?_⟩
    · change r.outcome.action = .pending at hpending
      cases hout : r.outcome <;> rw [hout] at hpending <;> cases hpending
    · change optionalText (some _) ≠ none
      rw [hdigest]
      nofun
  have hkept : ∀ t calls, t.action r.actionId = some (row.resolved r now) →
      (run Store.after t calls).action r.actionId = some (row.resolved r now) := by
    intro t calls ht
    induction calls generalizing t with
    | nil => exact ht
    | cons c rest ih => exact ih _ (keepsDone_after t c _ _ ht hdone)
  have hfrom := (hydrateAction_ok hb).1
  have hrecorded : b.completionFingerprint = some (fingerprint r.json) :=
    hfrom.completionFingerprint.trans (hdigest _)
  have hkey : b.completionKey = some r.completionKey :=
    hfrom.completionKey.trans hread.completionKey
  intro calls
  have hu := hkept _ calls (Store.action_resolve hrow now)
  refine ⟨hu, fun env args r' hr' hid => ?_⟩
  have hexec := exec_resolveAction_recorded env (hid ▸ hu) hb hrecorded
  have hiff : fingerprint r.json = fingerprint r'.json ↔ r'.Same r :=
    (Resolution.fingerprint_eq_iff hsha hfloat).trans eq_comm
  constructor
  · intro hsame
    have hkey' := hkey.trans (congrArg some (completionKey_of_same hsame).symm)
    rw [if_pos ⟨hkey', hiff.mpr hsame⟩] at hexec
    rw [Work.transaction, actionRecord_eq hr', hexec, hfrom.runId]
    exact ⟨_, rfl⟩
  · intro hdiffers
    rw [if_neg fun h => hdiffers (hiff.mp h.2)] at hexec
    rw [Work.transaction, actionRecord_eq hr', hexec, hid]

/-- **A completion is recorded once and replayed for good**, exactly if the row of its action reads
and its run is there, there is no message beside a success, and the result reads back. -/
theorem completesOnce_iff (hsha : Function.Injective Digest.sha256) (hfloat : FloatText.Lawful)
    (hdigest : ∀ v : Value, optionalText (some (fingerprint v)) = some (fingerprint v))
    {s : Store} {env : Env} {args : Map} {r : Resolution} {row : Action} {now : String}
    (hr : resolutionOf args = .ok r) (hnow : nowIso env = .ok now)
    (hrow : s.action r.actionId = some row) (hopen : s.OpenAction row) :
    CompletesOnce s env args r row ↔
      s.Readable row ∧ (r.outcome = .failed ∨ r.errorMessage = none) ∧ r.ReadsBack := by
  have hread := isRead_of_resolutionOf hr
  rw [← Resolution.kept_iff hsha hfloat]
  constructor
  · rintro ⟨late, now', hrecord, -⟩
    have hok := Work.transaction_ok hrecord
    rcases actionRecord_ok hok with
      ⟨-, hreplayed⟩ | ⟨r', row', at', hrow', hread', -, hrun, hr', -, hb⟩
    · cases hreplayed
    · obtain rfl : r = r' := Except.ok.inj (hr.symm.trans hr')
      obtain rfl : row = row' := Option.some.inj (hrow.symm.trans hrow')
      obtain ⟨a, hread'⟩ := hread'
      exact ⟨⟨⟨a, hread'⟩, hrun⟩, (exists_hydrateAction_resolved hread' hread hdigest _).mp hb⟩
  · rintro ⟨hreadable, hkept⟩
    obtain ⟨a, hread'⟩ := hreadable.1
    obtain ⟨b, hb⟩ := (exists_hydrateAction_resolved hread' hread hdigest now).mpr hkept
    refine ⟨decide (row.status = .cancelled), now, ?_,
      settled_resolve hsha hfloat hdigest hrow hread hb⟩
    rw [Work.transaction, actionRecord_eq hr, exec_resolveAction_open hrow hopen hreadable hnow, hb]
    rfl

end Runs

/-! ### A run with one action -/

/-- A stand-in for the digest that tells all texts apart. -/
@[reducible] def marked : Digest := ⟨fun s => "h" ++ s ++ "h"⟩

omit [FloatText] [FloatRead] [Digest] [IsoTime] in
lemma marked_injective : Function.Injective marked.sha256 := by
  intro s t h
  change "h" ++ s ++ "h" = "h" ++ t ++ "h" at h
  have hlists := congrArg String.toList h
  simp only [String.toList_append, List.append_cancel_left_eq,
    List.append_cancel_right_eq] at hlists
  exact String.toList_injective hlists

omit [FloatRead] [Digest] [IsoTime] in
lemma marked_read (v : Value) :
    letI := marked
    optionalText (some (fingerprint v)) = some (fingerprint v) := by
  have htrim : Str.trim ("h" ++ v.canonicalText ++ "h") = "h" ++ v.canonicalText ++ "h" := by
    rw [← String.toList_inj, Str.trim, String.toList_ofList]
    simp [Str.trimChars, Str.isWhitespace]
  have hne : "h" ++ v.canonicalText ++ "h" ≠ "" := by
    intro h
    have hlists := congrArg String.toList h
    simp at hlists
  change ((some ("h" ++ v.canonicalText ++ "h")).map Str.trim).filter (· ≠ "") = _
  rw [Option.map_some, htrim, Option.filter_some, if_pos (decide_eq_true hne)]
  rfl

/-- A procedure of one action. -/
def oneAction : Template :=
  { oneStep .action with
    steps := [⟨"a", .action, "t", [], "i", .null, .null, .null, .null,
      some ⟨"surface", "tool", .object [], "key"⟩, none, none⟩] }

/-- The start of a run of the procedure. -/
def actionStart : List Call :=
  [.templates [oneAction], .tool .runStart (sampleEnv 0 "")
    [("sop_id", .string "s"), ("occurrence_key", .string "o"), ("triggered_by", .string "x")]]

/-- The store with the action. -/
def actionStore : Store :=
  letI := FloatText.fields
  letI := asWritten
  letI := marked
  letI := IsoTime.utc
  letI := lenient
  run Store.after Store.empty actionStart

/-- A success, without a message or with one. -/
def successArgs (message : Value) : Map :=
  [("action_id", .string "soa_hsop_run_20260101T000000"), ("completion_key", .string "k"),
    ("outcome", .string "completed"), ("operation_ref", .string "op"), ("error_message", message)]

-- One evaluation for all that is asked of the store, as each costs the whole start of the run.
omit [FloatText] [FloatRead] [Digest] [IsoTime] in
lemma actionStore_facts :
    letI := FloatText.fields
    letI := asWritten
    letI := marked
    letI := IsoTime.utc
    (actionStore.action "soa_hsop_run_20260101T000000").any (fun row =>
      decide (row.status = .pending) && (hydrateAction row).toOption.isSome &&
        (actionStore.run (Str.trim row.runId)).isSome) ∧
    (Work.transaction (actionRecord (sampleEnv 1000 "") (successArgs (.string "note")))
      actionStore).1.toOption.isNone := by
  decide +kernel

/-- The row of the action. -/
def actionRow : Action :=
  (actionStore.action "soa_hsop_run_20260101T000000").get
    (Option.isSome_of_any actionStore_facts.1)

/-- The completion that these arguments name. -/
def success (message : Option String) : Resolution :=
  ⟨"soa_hsop_run_20260101T000000", "k", .completed, "op", [], .null, message⟩

section

omit [FloatText] [FloatRead] [Digest] [IsoTime]

lemma actionStore_action :
    actionStore.action "soa_hsop_run_20260101T000000" = some actionRow :=
  (Option.some_get _).symm

lemma actionRow_facts :
    letI := FloatText.fields
    letI := marked
    actionRow.status = .pending ∧ (hydrateAction actionRow).toOption.isSome ∧
      (actionStore.run (Str.trim actionRow.runId)).isSome := by
  have hfacts := Option.get_of_any_eq_true _ _ actionStore_facts.1
  rw [actionRow]
  simpa only [Bool.and_eq_true, decide_eq_true_eq, and_assoc] using hfacts

lemma actionStore_readable :
    letI := FloatText.fields
    letI := marked
    actionStore.Readable actionRow :=
  ⟨⟨_, Lists.eq_ok_of_isSome actionRow_facts.2.1 actionRow⟩,
    Option.isSome_iff_ne_none.mp actionRow_facts.2.2⟩

lemma resolutionOf_successArgs :
    letI := FloatText.fields
    resolutionOf (successArgs .null) = .ok (success none) ∧
      resolutionOf (successArgs (.string "note")) = .ok (success (some "note")) := by
  constructor <;> decide +kernel

lemma nowIso_sampleEnv :
    letI := IsoTime.utc
    nowIso (sampleEnv 1000 "") = .ok "2026-01-01T00:00:01.000Z" := by
  decide +kernel

/-- A success without a message is recorded once and for good. -/
theorem completesOnce_success :
    letI := FloatText.fields
    letI := asWritten
    letI := marked
    letI := IsoTime.utc
    letI := lenient
    CompletesOnce actionStore (sampleEnv 1000 "") (successArgs .null) (success none) actionRow :=
  letI := FloatText.fields
  letI := asWritten
  letI := marked
  letI := IsoTime.utc
  letI := lenient
  (completesOnce_iff marked_injective FloatText.fields_lawful marked_read resolutionOf_successArgs.1
    nowIso_sampleEnv actionStore_action (.inl actionRow_facts.1)).mpr
    ⟨actionStore_readable, .inr rfl, rfl⟩

/-- A success with a message is refused. -/
theorem success_with_message_refused :
    ¬ ∀ [FloatText] [FloatRead] [Digest] [IsoTime] [JsonSchema] (s : Store) (env : Env) (args : Map)
      (r : Resolution) (row : Action) (now : String), Function.Injective Digest.sha256 →
      FloatText.Lawful → Reachable s → resolutionOf args = .ok r → nowIso env = .ok now →
      s.action r.actionId = some row → s.OpenAction row → CompletesOnce s env args r row := by
  intro h
  let _ := FloatText.fields
  let _ := asWritten
  let _ := marked
  let _ := IsoTime.utc
  let _ := lenient
  have hreachable : Reachable actionStore := reachable_run .empty actionStart
  obtain ⟨late, now, hrecord, -⟩ := h actionStore (sampleEnv 1000 "") _ _ _ _ marked_injective
    FloatText.fields_lawful hreachable resolutionOf_successArgs.2 nowIso_sampleEnv
    actionStore_action (.inl actionRow_facts.1)
  have hrefused := actionStore_facts.2
  rw [hrecord] at hrefused
  cases hrefused

end

end Sop

end McpSurfaces
