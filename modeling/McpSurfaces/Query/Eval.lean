import McpSurfaces.Foundation.BoundedSearch
import McpSurfaces.Foundation.Lists
import McpSurfaces.Query.Index
import McpSurfaces.Query.Parse

/-!
The evaluation of a query: `apply_reachable`, `apply_clause`, `apply_planned` and
`execute`.

* The planner (`applyClause`, `planLoop`) is written once over an `Access` to the
  datoms: the index on an execution budget (`indexAccess`), or the answer lists without
  a budget (`listAccess`).
* `applyPlanned_simulates`: **on a budget the planner gives what it gives without one,
  or is refused**; a failure is a refusal of the budget or the failure without one.
* `executeWith` is the part of `execute` behind the planner: deduplication, cursor,
  order and page. `executeUnbounded_of_execute` and **`execute_limited`** carry the comparison
  over to `execute`.
-/

namespace McpSurfaces

namespace Query

open Metered

/-! ### The planner -/

/-- What the planner asks of the datoms: the answers of a triple and of a
reachability, and the limit on intermediate results. -/
structure Access (m : Type → Type) where
  triple : Map → Term → Term → Term → m (List Map)
  reachable : Map → Term → String → Term → ℕ → m (List Map)
  checkWork : ℕ → m Unit

/-- A clause with the way to apply it to a binding. -/
structure Step (m : Type → Type) where
  clause : Clause
  apply : Map → m (List Map)

def compareUnbound (term : String) : QueryFailure :=
  ⟨"query_compare_unbound",
    "compare " ++ term ++ " must be bound before the compare clause is evaluated",
    obj [("term", .string term)]⟩

/-- The arm of `apply_clause` for comparisons. -/
def applyCompare (binding : Map) (op : CompareOp) (left right : Term) :
    Except QueryFailure (List Map) :=
  match resolve left binding with
  | none => .error (compareUnbound "left")
  | some l =>
      match resolve right binding with
      | none => .error (compareUnbound "right")
      | some r => .ok (if compareHolds op l r then [binding] else [])

def clauseReady (binding : Map) (clause : Clause) (allowNested : Bool) : Bool :=
  match clause with
  | .triple _ _ _ => true
  | .reachable fromTerm _ _ _ => (resolve fromTerm binding).isSome
  | .compare _ left right => (resolve left binding).isSome && (resolve right binding).isSome
  | .exists_ _ | .notExists _ => allowNested

/-- The first remaining clause that every binding is ready for. -/
def readyPosition (bindings : List Map) (remaining : List Clause) : Option ℕ :=
  let allowNested := remaining.all Clause.isNested
  remaining.findIdx? fun clause =>
    bindings.all fun binding => clauseReady binding clause allowNested

/-- The clause to report when none is ready: the first that is no nested predicate. -/
def blockedPosition (remaining : List Clause) : ℕ :=
  (remaining.findIdx? fun clause => !clause.isNested).getD 0

section Planner

variable {m : Type → Type} [Monad m] [MonadExcept QueryFailure m]

/-- One clause applied to all the bindings. -/
def extendAll (access : Access m) (step : Step m) : List Map → List Map → m (List Map)
  | [], next => pure next
  | binding :: rest, next => do
      let results ← step.apply binding
      access.checkWork (next ++ results).length
      extendAll access step rest (next ++ results)

/-- The loop of `apply_planned`; every round takes one of the remaining clauses, so that
their number is fuel enough. -/
def planLoop (access : Access m) : ℕ → List (Step m) → List Map → m (List Map)
  | 0, _, bindings => pure bindings
  | fuel + 1, remaining, bindings =>
      match remaining, bindings with
      | [], bindings => pure bindings
      | _, [] => pure []
      | first :: others, binding :: rest =>
          let clauses := (first :: others).map Step.clause
          match readyPosition (binding :: rest) clauses with
          | none => (((first :: others)[blockedPosition clauses]?).getD first).apply binding
          | some position => do
              let next ← extendAll access (((first :: others)[position]?).getD first)
                (binding :: rest) []
              planLoop access fuel ((first :: others).eraseIdx position) next

def applyPlanned (access : Access m) (initial : Map) (steps : List (Step m)) : m (List Map) :=
  planLoop access steps.length steps [initial]

mutual

def applyClause (access : Access m) : Clause → Map → m (List Map)
  | .triple subject attr object => fun binding => access.triple binding subject attr object
  | .reachable fromTerm attr toTerm maxDepth => fun binding =>
      access.reachable binding fromTerm attr toTerm maxDepth
  | .compare op left right => fun binding => ofExcept (applyCompare binding op left right)
  | .exists_ clauses => fun binding => do
      let found ← applyPlanned access binding (clauseSteps access clauses)
      pure (if found.isEmpty then [] else [binding])
  | .notExists clauses => fun binding => do
      let found ← applyPlanned access binding (clauseSteps access clauses)
      pure (if found.isEmpty then [binding] else [])

/-- The clauses of a list with the way to apply them. -/
def clauseSteps (access : Access m) : List Clause → List (Step m)
  | [] => []
  | clause :: rest => ⟨clause, applyClause access clause⟩ :: clauseSteps access rest

end

end Planner

/-! ### Reachability -/

/-- The start of a reachability, a bound string. -/
def reachableStart (binding : Map) (fromTerm : Term) : Except QueryFailure String :=
  match resolve fromTerm binding with
  | none => .error ⟨"query_reachable_unbound",
      "reachable from must be bound before the reachable clause is evaluated",
      obj [("term", .string "from")]⟩
  | some (.string start) => .ok start
  | some value => .error ⟨"query_reachable_type", "reachable from must resolve to a string id",
      obj [("term", .string "from"), ("value", value)]⟩

/-- The loop that collects the edges of an attribute. -/
def collectEdges (attr : String) : List Datom → List (String × String) →
    Exec (List (String × String))
  | [], edges => pure edges
  | datom :: rest, edges => do
      scanDatom
      if datom.attr ≠ attr then collectEdges attr rest edges
      else
        match datom.value.asStr with
        | none => collectEdges attr rest edges
        | some target =>
            traverseEdge
            collectEdges attr rest (edges ++ [(datom.subject, target)])

/-- The targets of a node in the adjacency lists of the edges. -/
def adjacent (edges : List (String × String)) (node : String) : List String :=
  (((OrderedMap.pushAll Prod.fst edges).get node).getD []).map Prod.snd

/-- The nodes within `maxDepth` edges of the start, in the order the search meets them. -/
def reachedFrom (edges : List (String × String)) (start : String) (maxDepth : ℕ) : List String :=
  BoundedSearch.reached (adjacent edges) maxDepth (edges.length + 1) start

/-- The results of a reachability, one for every node that unifies with `to`. -/
def collectReached (toTerm : Term) (binding : Map) : List String → List Map → Exec (List Map)
  | [], results => pure results
  | next :: rest, results =>
      match unify toTerm (.string next) binding with
      | none => collectReached toTerm binding rest results
      | some result => do
          checkWork (results ++ [result]).length
          collectReached toTerm binding rest (results ++ [result])

variable [FloatText]

def applyReachable (binding : Map) (fromTerm : Term) (attr : String) (toTerm : Term)
    (maxDepth : ℕ) (index : DatomIndex) : Exec (List Map) := do
  let start ← ofExcept (reachableStart binding fromTerm)
  let edges ← collectEdges attr (index.attributeCandidates attr) []
  collectReached toTerm binding (reachedFrom edges start maxDepth) []

/-- The index of the datoms on an execution budget. -/
def indexAccess (datoms : List Datom) : Access Exec where
  triple binding subject attr object :=
    applyTriple binding subject attr object (DatomIndex.new datoms)
  reachable binding fromTerm attr toTerm maxDepth :=
    applyReachable binding fromTerm attr toTerm maxDepth (DatomIndex.new datoms)
  checkWork := checkWork

/-! ### Execution -/

omit [FloatText] in
/-- The inputs as a binding of normalized variables. -/
def initialBinding (inputs : Map) : Map :=
  inputs.foldl (fun binding e =>
    binding.insert ((variableName e.1).toOption.getD ("?" ++ e.1)) e.2) []

def cursorUnbound (name : String) : QueryFailure :=
  ⟨"query_cursor_unbound", "cursor ordering variable is not bound in the result",
    obj [("variable", .string name)]⟩

def cursorTypeMismatch (name : String) : QueryFailure :=
  ⟨"query_cursor_type_mismatch", "cursor value is not comparable with the ordered result value",
    obj [("variable", .string name)]⟩

/-- `after_cursor` on a cursor that is not empty. -/
def afterCursor (binding : Map) (cursor : Map) : List OrderTerm → Except QueryFailure Bool
  | [] => .ok false
  | order :: rest =>
      match order.term.asVariableName with
      | none => .error ⟨"query_cursor_invalid", "cursor ordering terms must be variables", .null⟩
      | some key =>
          match binding.get key, cursor.get key with
          | some current, some previous =>
              match compareValues current previous with
              | none => .error (cursorTypeMismatch key)
              | some .eq => afterCursor binding cursor rest
              | some ordering =>
                  .ok (if order.descending then ordering = .lt else ordering = .gt)
          | _, _ => .error (cursorUnbound key)

/-- The answers behind a cursor that is not empty. -/
def keepAfter (orderBy : List OrderTerm) (cursor : Map) :
    List Map → Except QueryFailure (List Map)
  | [] => .ok []
  | binding :: rest => do
      let keep ← afterCursor binding cursor orderBy
      let after ← keepAfter orderBy cursor rest
      return if keep then binding :: after else after

/-- The answers behind the cursor. -/
def filterCursor (orderBy : List OrderTerm) (cursor : Map) (bindings : List Map) :
    Except QueryFailure (List Map) :=
  if cursor.isEmpty then .ok bindings else keepAfter orderBy cursor bindings

/-- The comparison of two answers under the order terms. -/
def orderCompare (orderBy : List OrderTerm) (left right : Map) : Ordering :=
  match orderBy with
  | [] => .eq
  | order :: rest =>
      match resolve order.term left, resolve order.term right with
      | some l, some r =>
          match (compareValues l r).getD .eq with
          | .eq => orderCompare rest left right
          | ordering => if order.descending then ordering.swap else ordering
      | _, _ => orderCompare rest left right

/-- Whether two answers have equal values for every order term. -/
def sameOrderKey (orderBy : List OrderTerm) (left right : Map) : Bool :=
  orderBy.all fun order =>
    match resolve order.term left, resolve order.term right with
    | some l, some r => l.eqv r
    | _, _ => false

/-- Whether two neighbours have the same order key. -/
def duplicateOrderKey (orderBy : List OrderTerm) : List Map → Bool
  | first :: second :: rest =>
      sameOrderKey orderBy first second || duplicateOrderKey orderBy (second :: rest)
  | _ => false

def orderUnbound (order : OrderTerm) : QueryFailure :=
  ⟨"query_order_unbound", "order_by variable is not bound in every result",
    obj [("term", match order.term.asVariableName with
      | some name => .string name
      | none => .null)]⟩

/-- The check that every answer has a value for every order term. -/
def checkOrderBound (orderBy : List OrderTerm) (bindings : List Map) :
    Except QueryFailure Unit :=
  bindings.forM fun binding => orderBy.forM fun order =>
    if (resolve order.term binding).isNone then .error (orderUnbound order) else .ok ()

/-- The answers without repetitions of their text. -/
def distinctAnswers (bindings : List Map) : List Map :=
  Lists.retainFirst (fun binding => Value.text (.object binding)) bindings

/-- `execute` behind the planner. -/
def executeWith (spec : QuerySpec) (bindings : List Map) : Except QueryFailure QueryResult := do
  let bindings ← filterCursor spec.orderBy spec.cursorValues (distinctAnswers bindings)
  checkOrderBound spec.orderBy bindings
  let bindings := Lists.sortBy (orderCompare spec.orderBy) bindings
  let hasMore := decide (spec.limit < bindings.length)
  if hasMore && !spec.orderBy.isEmpty && duplicateOrderKey spec.orderBy bindings then
    throw ⟨"query_order_not_unique", "order_by values must uniquely advance a paginated result",
      .null⟩
  return ⟨bindings.take spec.limit, spec.pulls, spec.orderBy, hasMore⟩

/-- The work limit of an execution. -/
def workLimitOf (limits : QueryLimits) : ℕ := max limits.maxDatomsScanned 1000

def execute (spec : QuerySpec) (datoms : List Datom) : Except QueryFailure QueryResult := do
  let access := indexAccess datoms
  let (bindings, _) ←
    (applyPlanned access (initialBinding spec.inputs) (clauseSteps access spec.clauses)).run
      (ExecutionBudget.new spec.limits (workLimitOf spec.limits))
  executeWith spec bindings

/-! ### The parts of a result -/

lemma distinctAnswers_sublist (bindings : List Map) :
    (distinctAnswers bindings).Sublist bindings :=
  Lists.retainFirst_sublist _ bindings

/-- No two answers have the same text. -/
lemma nodup_text_distinctAnswers (bindings : List Map) :
    ((distinctAnswers bindings).map fun b => Value.text (.object b)).Nodup :=
  Lists.nodup_map_retainFirst _ bindings

lemma nodup_distinctAnswers (bindings : List Map) : (distinctAnswers bindings).Nodup :=
  (nodup_text_distinctAnswers bindings).of_map

/-- The page of a result: the answers behind the cursor, sorted and cut. -/
structure PageOf (spec : QuerySpec) (bindings after : List Map) (result : QueryResult) :
    Prop where
  cursor : filterCursor spec.orderBy spec.cursorValues (distinctAnswers bindings) = .ok after
  orderBound : checkOrderBound spec.orderBy after = .ok ()
  unique : spec.limit < after.length → spec.orderBy ≠ [] →
    duplicateOrderKey spec.orderBy (Lists.sortBy (orderCompare spec.orderBy) after) = false
  page : result.bindings = (Lists.sortBy (orderCompare spec.orderBy) after).take spec.limit
  hasMore : result.hasMore = decide (spec.limit < after.length)

/-- What a successful execution behind the planner consists of. -/
lemma executeWith_ok {spec : QuerySpec} {bindings : List Map} {result : QueryResult}
    (h : executeWith spec bindings = .ok result) : ∃ after, PageOf spec bindings after result := by
  simp only [executeWith] at h
  cases hcursor : filterCursor spec.orderBy spec.cursorValues (distinctAnswers bindings) with
  | error e => rw [hcursor] at h; cases h
  | ok after =>
      rw [hcursor] at h
      have hlen : (Lists.sortBy (orderCompare spec.orderBy) after).length = after.length :=
        (Lists.sortBy_perm _ after).length_eq
      cases hbound : checkOrderBound spec.orderBy after with
      | error e => simp only [bind, Except.bind, hbound] at h; cases h
      | ok u =>
          simp only [bind, Except.bind, hbound, hlen] at h
          split_ifs at h with hdup
          cases h
          refine ⟨after, hcursor, hbound, fun hmore horder => ?_, rfl, rfl⟩
          simpa [hmore, horder] using hdup

/-! ### Without a budget -/

omit [FloatText] in
/-- The edges of an attribute: its datoms with a string for a value. -/
def edgesOf (datoms : List Datom) (attr : String) : List (String × String) :=
  (datoms.filter fun d => d.attr = attr).filterMap fun d =>
    d.value.asStr.map fun target => (d.subject, target)

omit [FloatText] in
/-- The answers of a reachability. -/
def reachableAnswers (datoms : List Datom) (binding : Map) (fromTerm : Term) (attr : String)
    (toTerm : Term) (maxDepth : ℕ) : Except QueryFailure (List Map) := do
  let start ← reachableStart binding fromTerm
  return (reachedFrom (edgesOf datoms attr) start maxDepth).filterMap fun next =>
    unify toTerm (.string next) binding

/-- The answer lists of the datoms, without a budget. -/
def listAccess (datoms : List Datom) : Access (Except QueryFailure) where
  triple binding subject attr object := .ok (tripleAnswers datoms binding subject attr object)
  reachable := reachableAnswers datoms
  checkWork _ := .ok ()

/-- `execute` without a budget. -/
def executeUnbounded (spec : QuerySpec) (datoms : List Datom) :
    Except QueryFailure QueryResult := do
  let access := listAccess datoms
  let bindings ←
    applyPlanned access (initialBinding spec.inputs) (clauseSteps access spec.clauses)
  executeWith spec bindings

/-! ### One round of the planner -/

omit [FloatText] in
/-- Binding after binding, a clause without a limit gives the results of all of them. -/
lemma extendAll_ok {lists : Access (Except QueryFailure)} (hlimit : ∀ n, lists.checkWork n = .ok ())
    {step : Step (Except QueryFailure)} {bindings next out : List Map}
    (h : extendAll lists step bindings next = .ok out) :
    ∃ results, bindings.mapM step.apply = .ok results ∧ out = next ++ results.flatten := by
  induction bindings generalizing next with
  | nil =>
      cases h
      exact ⟨[], rfl, by simp⟩
  | cons binding rest ih =>
      simp only [extendAll, hlimit] at h
      cases happly : step.apply binding with
      | error e => rw [happly] at h; cases h
      | ok results =>
          rw [happly] at h
          obtain ⟨tails, htails, hout⟩ := ih h
          refine ⟨results :: tails, ?_, by simp [hout]⟩
          rw [List.mapM_cons, happly, htails]
          rfl

omit [FloatText] in
/-- The two outcomes of a round with bindings and clauses left: a clause that every
binding is ready for is applied to all of them and leaves the list, or no clause is ready
and a plain one is applied to the first binding. -/
lemma planLoop_round {lists : Access (Except QueryFailure)} {fuel : ℕ}
    {remaining : List (Step (Except QueryFailure))} {binding : Map} {rest out : List Map}
    (hremaining : remaining ≠ [])
    (h : planLoop lists (fuel + 1) remaining (binding :: rest) = .ok out) :
    (∃ before step after, remaining = before ++ step :: after ∧
      (∀ b ∈ binding :: rest, clauseReady b step.clause
        ((remaining.map Step.clause).all Clause.isNested)) ∧
      ∃ next, extendAll lists step (binding :: rest) [] = .ok next ∧
        planLoop lists fuel (before ++ after) next = .ok out) ∨
    ∃ step ∈ remaining, step.clause.isNested = false ∧ step.apply binding = .ok out ∧
      ∃ b ∈ binding :: rest, clauseReady b step.clause false = false := by
  obtain ⟨first, others, rfl⟩ := List.exists_cons_of_ne_nil hremaining
  simp only [planLoop] at h
  generalize hall : first :: others = all at h ⊢
  cases hready : readyPosition (binding :: rest) (all.map Step.clause) with
  | some i =>
      left
      rw [hready] at h
      rw [readyPosition, List.findIdx?_eq_some_iff_getElem] at hready
      obtain ⟨hi, hp, -⟩ := hready
      rw [List.length_map] at hi
      simp only [List.getElem_map] at hp
      refine ⟨all.take i, all[i], all.drop (i + 1), ?_, List.all_eq_true.mp hp, ?_⟩
      · rw [← List.drop_eq_getElem_cons hi, List.take_append_drop]
      · simp only [List.getElem?_eq_getElem hi, Option.getD_some] at h
        rw [← List.eraseIdx_eq_take_drop_succ]
        cases hext : extendAll lists all[i] (binding :: rest) [] with
        | error e => rw [hext] at h; cases h
        | ok next => rw [hext] at h; exact ⟨next, rfl, h⟩
  | none =>
      right
      rw [hready] at h
      rw [readyPosition, List.findIdx?_eq_none_iff] at hready
      -- A list of nested predicates only is always ready.
      have hplain : ∃ c ∈ all.map Step.clause, c.isNested = false := by
        by_contra hno
        push Not at hno
        have hnested : ∀ c ∈ all.map Step.clause, c.isNested := fun c hc => by
          simpa using hno c hc
        have hfirst : first.clause ∈ all.map Step.clause := by
          rw [← hall]; exact List.mem_cons_self
        have hblocked := hready first.clause hfirst
        rw [List.all_eq_true.mpr hnested] at hblocked
        have hn := hnested first.clause hfirst
        cases hc : first.clause <;> rw [hc] at hn hblocked <;>
          simp [Clause.isNested, clauseReady] at hn hblocked
      cases hpos : (all.map Step.clause).findIdx? fun c => !c.isNested with
      | none =>
          rw [List.findIdx?_eq_none_iff] at hpos
          obtain ⟨c, hc, hn⟩ := hplain
          have := hpos c hc
          simp [hn] at this
      | some i =>
          rw [blockedPosition, hpos, Option.getD_some] at h
          obtain ⟨hi, hp, -⟩ := List.findIdx?_eq_some_iff_getElem.mp hpos
          rw [List.length_map] at hi
          simp only [List.getElem_map] at hp
          rw [List.getElem?_eq_getElem hi, Option.getD_some] at h
          have hn : (all[i]).clause.isNested = false := by simpa using hp
          refine ⟨all[i], List.getElem_mem hi, hn, h, ?_⟩
          have hblocked := hready (all[i]).clause
            (List.mem_map_of_mem (List.getElem_mem hi))
          obtain ⟨b, hb, hnot⟩ := List.all_eq_false.mp hblocked
          refine ⟨b, hb, ?_⟩
          cases hc : (all[i]).clause <;> rw [hc] at hn hnot <;>
            simp_all [Clause.isNested, clauseReady]

/-! ### The simulation -/

section Simulation

section

omit [FloatText]

private lemma collectEdges_simulates (attr : String) (datoms : List Datom)
    (edges : List (String × String)) :
    Simulates BudgetRefusal (collectEdges attr datoms edges)
      (.ok (edges ++ edgesOf datoms attr)) := by
  induction datoms generalizing edges with
  | nil => simpa [collectEdges, edgesOf] using Simulates.pure edges
  | cons datom rest ih =>
      unfold collectEdges
      refine Simulates.meter (fun _ _ => scanDatom_error) ?_
      by_cases hattr : datom.attr = attr
      · cases htarget : datom.value.asStr with
        | none => simpa [edgesOf, hattr, htarget] using ih edges
        | some target =>
            simp only [ne_eq, hattr, not_true_eq_false, if_false]
            refine Simulates.meter (fun _ _ => traverseEdge_error) ?_
            simpa [edgesOf, hattr, htarget] using ih (edges ++ [(datom.subject, target)])
      · simpa [edgesOf, hattr] using ih edges

private lemma collectReached_simulates (toTerm : Term) (binding : Map) (nodes : List String)
    (results : List Map) :
    Simulates BudgetRefusal (collectReached toTerm binding nodes results)
      (.ok (results ++ nodes.filterMap fun next => unify toTerm (.string next) binding)) := by
  induction nodes generalizing results with
  | nil => simpa [collectReached] using Simulates.pure results
  | cons next rest ih =>
      unfold collectReached
      cases hu : unify toTerm (.string next) binding with
      | none => simpa [hu] using ih results
      | some result =>
          refine Simulates.meter (fun _ _ => checkWork_error) ?_
          simpa [hu] using ih (results ++ [result])

private lemma ofExcept_simulates {α : Type} (p : Except QueryFailure α) :
    Simulates BudgetRefusal (ofExcept p : Exec α) p := by
  cases p with
  | ok a => exact Simulates.pure a
  | error e => exact Simulates.throw e

end

lemma applyReachable_simulates (datoms : List Datom) (binding : Map) (fromTerm : Term)
    (attr : String) (toTerm : Term) (maxDepth : ℕ) :
    Simulates BudgetRefusal
      (applyReachable binding fromTerm attr toTerm maxDepth (DatomIndex.new datoms))
      (reachableAnswers datoms binding fromTerm attr toTerm maxDepth) := by
  refine Simulates.bind (ofExcept_simulates _) fun start => ?_
  rw [attributeCandidates_eq_filter]
  have hedges := collectEdges_simulates attr (datoms.filter fun d => d.attr = attr) []
  rw [List.nil_append, show edgesOf (datoms.filter fun d => d.attr = attr) attr =
    edgesOf datoms attr by simp [edgesOf]] at hedges
  exact Simulates.bind
    (g := fun edges => .ok ((reachedFrom edges start maxDepth).filterMap fun next =>
      unify toTerm (.string next) binding))
    hedges fun edges => collectReached_simulates toTerm binding _ []

/-- Two accesses of which the first is metered. -/
private structure AccessSimulates (access : Access Exec) (lists : Access (Except QueryFailure)) :
    Prop where
  triple : ∀ b s a o, Simulates BudgetRefusal (access.triple b s a o) (lists.triple b s a o)
  reachable : ∀ b f a t d,
    Simulates BudgetRefusal (access.reachable b f a t d) (lists.reachable b f a t d)
  checkWork : ∀ n s e, (access.checkWork n).run s = .error e → BudgetRefusal e
  noLimit : ∀ n, lists.checkWork n = .ok ()

private lemma indexAccess_simulates (datoms : List Datom) :
    AccessSimulates (indexAccess datoms) (listAccess datoms) where
  triple b s a o := applyTriple_simulates datoms b s a o
  reachable b f a t d := applyReachable_simulates datoms b f a t d
  checkWork _ _ _ := checkWork_error
  noLimit _ := rfl

/-- Two steps of one clause of which the first is metered. -/
private def StepSimulates (step : Step Exec) (list : Step (Except QueryFailure)) : Prop :=
  step.clause = list.clause ∧ ∀ b, Simulates BudgetRefusal (step.apply b) (list.apply b)

variable {access : Access Exec} {lists : Access (Except QueryFailure)}

section

omit [FloatText]

private lemma extendAll_simulates (haccess : AccessSimulates access lists) {step : Step Exec}
    {list : Step (Except QueryFailure)} (hstep : StepSimulates step list)
    (bindings next : List Map) :
    Simulates BudgetRefusal (extendAll access step bindings next)
      (extendAll lists list bindings next) := by
  induction bindings generalizing next with
  | nil => exact Simulates.pure next
  | cons binding rest ih =>
      refine Simulates.bind (hstep.2 binding) fun results => ?_
      rw [haccess.noLimit]
      exact Simulates.meter (haccess.checkWork _) (ih (next ++ results))

private lemma map_clause_eq {steps : List (Step Exec)}
    {others : List (Step (Except QueryFailure))} (h : List.Forall₂ StepSimulates steps others) :
    steps.map Step.clause = others.map Step.clause := by
  induction h with
  | nil => rfl
  | cons hstep _ ih => rw [List.map_cons, List.map_cons, hstep.1, ih]

private lemma getD_simulates {steps : List (Step Exec)} {others : List (Step (Except QueryFailure))}
    (h : List.Forall₂ StepSimulates steps others) {step : Step Exec}
    {other : Step (Except QueryFailure)} (hfirst : StepSimulates step other) (i : ℕ) :
    StepSimulates (steps[i]?.getD step) (others[i]?.getD other) := by
  induction h generalizing i with
  | nil => simpa using hfirst
  | cons hstep _ ih =>
      cases i with
      | zero => simpa using hstep
      | succ i => simpa using ih i

private lemma eraseIdx_simulates {steps : List (Step Exec)}
    {others : List (Step (Except QueryFailure))} (h : List.Forall₂ StepSimulates steps others)
    (i : ℕ) : List.Forall₂ StepSimulates (steps.eraseIdx i) (others.eraseIdx i) := by
  induction h generalizing i with
  | nil => exact .nil
  | cons hstep htail ih =>
      cases i with
      | zero => exact htail
      | succ i => exact .cons hstep (ih i)

private lemma planLoop_simulates (haccess : AccessSimulates access lists) (fuel : ℕ)
    {steps : List (Step Exec)} {others : List (Step (Except QueryFailure))}
    (h : List.Forall₂ StepSimulates steps others) (bindings : List Map) :
    Simulates BudgetRefusal (planLoop access fuel steps bindings)
      (planLoop lists fuel others bindings) := by
  induction fuel generalizing steps others bindings with
  | zero => exact Simulates.pure bindings
  | succ fuel ih =>
      cases h with
      | nil => cases bindings <;> exact Simulates.pure _
      | @cons step other steps others hstep hsteps =>
          cases bindings with
          | nil => exact Simulates.pure []
          | cons binding rest =>
              have hall : List.Forall₂ StepSimulates (step :: steps) (other :: others) :=
                .cons hstep hsteps
              unfold planLoop
              simp only [map_clause_eq hall]
              cases readyPosition (binding :: rest) ((other :: others).map Step.clause) with
              | none => exact (getD_simulates hall hstep _).2 binding
              | some position =>
                  refine Simulates.bind
                    (extendAll_simulates haccess (getD_simulates hall hstep position) _ _)
                    fun next => ih ?_ next
                  exact eraseIdx_simulates hall position

private lemma clauseSteps_simulates {clauses : List Clause}
    (h : ∀ c ∈ clauses, ∀ b,
      Simulates BudgetRefusal (applyClause access c b) (applyClause lists c b)) :
    List.Forall₂ StepSimulates (clauseSteps access clauses) (clauseSteps lists clauses) := by
  induction clauses with
  | nil => exact .nil
  | cons c cs ih =>
      exact .cons ⟨rfl, h c List.mem_cons_self⟩
        (ih fun c' hc' => h c' (List.mem_cons_of_mem _ hc'))

private lemma applyPlanned_simulates_of (haccess : AccessSimulates access lists)
    {clauses : List Clause} (h : ∀ c ∈ clauses, ∀ b,
      Simulates BudgetRefusal (applyClause access c b) (applyClause lists c b)) (b : Map) :
    Simulates BudgetRefusal (applyPlanned access b (clauseSteps access clauses))
      (applyPlanned lists b (clauseSteps lists clauses)) := by
  have hsteps := clauseSteps_simulates h
  unfold applyPlanned
  rw [hsteps.length_eq]
  exact planLoop_simulates haccess _ hsteps [b]

private lemma applyClause_simulates (haccess : AccessSimulates access lists) (clause : Clause) :
    ∀ b, Simulates BudgetRefusal (applyClause access clause b) (applyClause lists clause b) := by
  induction clause using Clause.ind with
  | triple s a o => exact fun b => haccess.triple b s a o
  | compare op l r =>
      intro b
      have hlists : applyClause lists (.compare op l r) b = applyCompare b op l r := by
        unfold applyClause
        cases applyCompare b op l r <;> rfl
      rw [hlists]
      exact ofExcept_simulates (applyCompare b op l r)
  | reachable f a t d => exact fun b => haccess.reachable b f a t d
  | exists_ cs ih =>
      exact fun b => Simulates.bind (applyPlanned_simulates_of haccess ih b)
        fun found => Simulates.pure _
  | notExists cs ih =>
      exact fun b => Simulates.bind (applyPlanned_simulates_of haccess ih b)
        fun found => Simulates.pure _

end

/-- **The budget only refuses**: a run of the planner on the index gives the bindings of
the unbounded one or fails, and it fails by a refusal of the budget or as the unbounded
one does. -/
theorem applyPlanned_simulates (datoms : List Datom) (initial : Map) (clauses : List Clause) :
    Simulates BudgetRefusal
      (applyPlanned (indexAccess datoms) initial (clauseSteps (indexAccess datoms) clauses))
      (applyPlanned (listAccess datoms) initial (clauseSteps (listAccess datoms) clauses)) :=
  applyPlanned_simulates_of (indexAccess_simulates datoms)
    (fun c _ => applyClause_simulates (indexAccess_simulates datoms) c) initial

/-- A result of `execute` is the result without a budget. -/
theorem executeUnbounded_of_execute {spec : QuerySpec} {datoms : List Datom}
    {result : QueryResult} (h : execute spec datoms = .ok result) :
    executeUnbounded spec datoms = .ok result := by
  have hsim := applyPlanned_simulates datoms (initialBinding spec.inputs) spec.clauses
    (ExecutionBudget.new spec.limits (workLimitOf spec.limits))
  unfold execute at h
  unfold executeUnbounded
  simp only at h ⊢
  cases hrun : (applyPlanned (indexAccess datoms) (initialBinding spec.inputs)
      (clauseSteps (indexAccess datoms) spec.clauses)).run
      (ExecutionBudget.new spec.limits (workLimitOf spec.limits)) with
  | error e => rw [hrun] at h; cases h
  | ok r =>
      rw [hrun] at h
      rw [hsim.1 r.1 r.2 hrun]
      exact h

/-- **The limits only refuse**: under them a query gives what it gives without any, or it is refused
for one of them. -/
theorem execute_limited (spec : QuerySpec) (datoms : List Datom) :
    execute spec datoms = executeUnbounded spec datoms ∨
      ∃ e, BudgetRefusal e ∧ execute spec datoms = .error e := by
  have hsim := applyPlanned_simulates datoms (initialBinding spec.inputs) spec.clauses
    (ExecutionBudget.new spec.limits (workLimitOf spec.limits))
  unfold execute executeUnbounded
  simp only
  cases hrun : (applyPlanned (indexAccess datoms) (initialBinding spec.inputs)
      (clauseSteps (indexAccess datoms) spec.clauses)).run
      (ExecutionBudget.new spec.limits (workLimitOf spec.limits)) with
  | error e =>
      rcases hsim.2 e hrun with hrefusal | hfail
      · exact .inr ⟨e, hrefusal, rfl⟩
      · rw [hfail]
        exact .inl rfl
  | ok r =>
      rw [hsim.1 r.1 r.2 hrun]
      exact .inl rfl

end Simulation

end Query

end McpSurfaces
