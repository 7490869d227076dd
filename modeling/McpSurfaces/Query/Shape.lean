import McpSurfaces.Foundation.Fallible
import McpSurfaces.Foundation.Metered
import McpSurfaces.Query.Parse

/-!
The shape of a query that is parsed, within its limits.

* `Clause.total`, `Clause.depth`: the clauses of a clause with all nested ones, and how deep its
  predicates are nested. `Clause.Capped`: its `one_of` terms and its depths of reachability, in
  whatever place they stand.
* **`parse_within`**: a query that is parsed keeps to all the limits.
-/

namespace McpSurfaces

namespace Query

open Lists Metered

/-! ### The shape of a clause -/

mutual

/-- The number of clauses, a clause itself and all those nested in it. -/
def Clause.total : Clause → ℕ
  | .exists_ clauses | .notExists clauses => totalOf clauses + 1
  | _ => 1

def totalOf : List Clause → ℕ
  | [] => 0
  | clause :: rest => clause.total + totalOf rest

end

mutual

/-- The levels of predicates in a clause. -/
def Clause.depth : Clause → ℕ
  | .exists_ clauses | .notExists clauses => depthOf clauses + 1
  | _ => 0

def depthOf : List Clause → ℕ
  | [] => 0
  | clause :: rest => max clause.depth (depthOf rest)

end

/-- A choice has at least one value, and no more than the limit. -/
def Term.Capped (limits : QueryLimits) : Term → Prop
  | .oneOf values => 1 ≤ values.length ∧ values.length ≤ limits.maxOneOfValues
  | _ => True

mutual

/-- The terms and the depths of reachability of a clause, and of those nested in it, keep to the
limits; no predicate is empty. -/
def Clause.Capped (limits : QueryLimits) : Clause → Prop
  | .triple subject attr object =>
      subject.Capped limits ∧ attr.Capped limits ∧ object.Capped limits
  | .compare _ left right => left.Capped limits ∧ right.Capped limits
  | .reachable fromTerm _ toTerm maxDepth =>
      fromTerm.Capped limits ∧ toTerm.Capped limits ∧ 1 ≤ maxDepth ∧ maxDepth ≤ limits.maxReachDepth
  | .exists_ clauses | .notExists clauses => clauses ≠ [] ∧ AllCapped limits clauses

def AllCapped (limits : QueryLimits) : List Clause → Prop
  | [] => True
  | clause :: rest => clause.Capped limits ∧ AllCapped limits rest

end

lemma Clause.one_le_total (clause : Clause) : 1 ≤ clause.total := by
  cases clause with
  | triple subject attr object => exact le_rfl
  | compare op left right => exact le_rfl
  | reachable fromTerm attr toTerm maxDepth => exact le_rfl
  | exists_ clauses => exact Nat.le_add_left 1 _
  | notExists clauses => exact Nat.le_add_left 1 _

lemma one_le_totalOf {clauses : List Clause} (h : clauses ≠ []) : 1 ≤ totalOf clauses := by
  obtain ⟨clause, rest, rfl⟩ := List.exists_cons_of_ne_nil h
  exact clause.one_le_total.trans (Nat.le_add_right _ _)

/-- A query within its limits. -/
structure QuerySpec.Within (limits : QueryLimits) (spec : QuerySpec) : Prop where
  clauses : 1 ≤ totalOf spec.clauses ∧ totalOf spec.clauses ≤ limits.maxClauses
  depth : depthOf spec.clauses ≤ limits.maxPredicateDepth
  capped : AllCapped limits spec.clauses
  finds : (1 ≤ spec.finds.length ∧ spec.finds.length ≤ limits.maxClauses) ∧
    ∀ term ∈ spec.finds, term.Capped limits
  inputs : spec.inputs.length ≤ limits.maxClauses
  orderBy : spec.orderBy.length ≤ limits.maxClauses ∧
    ∀ order ∈ spec.orderBy, order.term.Capped limits
  pulls : ∀ pull ∈ spec.pulls, 1 ≤ pull.fields.length ∧ pull.fields.length ≤ limits.maxClauses
  limit : 1 ≤ spec.limit ∧ spec.limit ≤ limits.maxResults

/-! ### Terms -/

variable {limits : QueryLimits}

lemma Term.capped_of_asVariableName {term : Term} (h : term.asVariableName.isSome) :
    term.Capped limits := by
  cases term with
  | var name => trivial
  | value v => trivial
  | oneOf values => cases h

lemma parseTermObject_capped {value : Value} {object : Map} {term : Term}
    (h : parseTermObject value object limits = .ok term) : term.Capped limits := by
  unfold parseTermObject at h
  obtain ⟨_, -, h⟩ := bind_eq_ok h
  obtain ⟨-, h⟩ := guard_ok h
  dsimp only at h
  split at h
  · obtain ⟨name, -, h⟩ := bind_eq_ok h
    cases h
    trivial
  split at h
  · obtain ⟨name, -, h⟩ := bind_eq_ok h
    cases h
    trivial
  split at h
  · cases h
    trivial
  split at h
  · next values _ =>
      obtain ⟨hsome, h⟩ := guard_ok h
      obtain ⟨hbound, h⟩ := guard_ok h
      cases h
      refine ⟨List.length_pos_iff.mpr fun hnone => hsome ?_, not_lt.mp hbound⟩
      rw [hnone]
      rfl
  · cases h

lemma parseTerm_capped {value : Value} {term : Term} (h : parseTerm value limits = .ok term) :
    term.Capped limits := by
  unfold parseTerm at h
  split at h
  · split at h
    · next text _ =>
        cases hname : variableName text with
        | error failure => rw [hname] at h; cases h
        | ok name =>
            rw [hname] at h
            cases h
            trivial
    · cases h
      trivial
  · exact parseTermObject_capped h
  · cases h
    trivial

/-! ### Clauses without nested ones -/

/-- A clause without nested ones, within the limits. -/
structure Clause.Plain (limits : QueryLimits) (clause : Clause) : Prop where
  total : clause.total = 1
  depth : clause.depth = 0
  capped : clause.Capped limits

lemma parseTriple_plain {value : Value} {clause : Clause}
    (h : parseTriple value limits = .ok clause) : clause.Plain limits := by
  unfold parseTriple at h
  obtain ⟨triple, -, h⟩ := bind_eq_ok h
  obtain ⟨_, -, h⟩ := bind_eq_ok h
  obtain ⟨-, h⟩ := guard_ok h
  dsimp only at h
  obtain ⟨_, -, h⟩ := bind_eq_ok h
  obtain ⟨_, -, h⟩ := bind_eq_ok h
  obtain ⟨_, -, h⟩ := bind_eq_ok h
  obtain ⟨subject, hsubject, h⟩ := bind_eq_ok h
  obtain ⟨attr, hattr, h⟩ := bind_eq_ok h
  obtain ⟨object, hobject, h⟩ := bind_eq_ok h
  cases h
  exact ⟨rfl, rfl, parseTerm_capped hsubject, parseTerm_capped hattr, parseTerm_capped hobject⟩

lemma parseCompare_plain {value : Value} {clause : Clause}
    (h : parseCompare value limits = .ok clause) : clause.Plain limits := by
  unfold parseCompare at h
  obtain ⟨compare, -, h⟩ := bind_eq_ok h
  obtain ⟨_, -, h⟩ := bind_eq_ok h
  obtain ⟨_, -, h⟩ := bind_eq_ok h
  obtain ⟨_, -, h⟩ := bind_eq_ok h
  obtain ⟨_, -, h⟩ := bind_eq_ok h
  obtain ⟨_, -, h⟩ := bind_eq_ok h
  obtain ⟨left, hleft, h⟩ := bind_eq_ok h
  obtain ⟨right, hright, h⟩ := bind_eq_ok h
  cases h
  exact ⟨rfl, rfl, parseTerm_capped hleft, parseTerm_capped hright⟩

lemma parseReachable_plain {value : Value} {clause : Clause}
    (h : parseReachable value limits = .ok clause) : clause.Plain limits := by
  unfold parseReachable at h
  obtain ⟨reachable, -, h⟩ := bind_eq_ok h
  obtain ⟨_, -, h⟩ := bind_eq_ok h
  obtain ⟨_, -, h⟩ := bind_eq_ok h
  obtain ⟨_, -, h⟩ := bind_eq_ok h
  obtain ⟨_, -, h⟩ := bind_eq_ok h
  dsimp only at h
  -- The depth is that of the clause, or one.
  split at h
  all_goals
    obtain ⟨requested, -, h⟩ := bind_eq_ok h
    obtain ⟨hpos, h⟩ := guard_ok h
    obtain ⟨fromTerm, hfrom, h⟩ := bind_eq_ok h
    obtain ⟨toTerm, hto, h⟩ := bind_eq_ok h
    cases h
    exact ⟨rfl, rfl, parseTerm_capped hfrom, parseTerm_capped hto, Nat.one_le_iff_ne_zero.mpr hpos,
      min_le_right _ _⟩

/-! ### Nested clauses -/

lemma nestedValues_ne_nil {key : String} {nested : Value} {values : List Value}
    (h : nestedValues key nested limits = .ok values) : values ≠ [] := by
  unfold nestedValues at h
  obtain ⟨object, -, h⟩ := bind_eq_ok h
  obtain ⟨_, -, h⟩ := bind_eq_ok h
  dsimp only at h
  split at h
  · obtain ⟨-, h⟩ := guard_ok h
    obtain ⟨found, -, h⟩ := bind_eq_ok h
    obtain ⟨hsome, h⟩ := guard_ok h
    cases h
    rintro rfl
    exact hsome (.inl rfl)
  · obtain ⟨-, h⟩ := guard_ok h
    obtain ⟨found, -, h⟩ := bind_eq_ok h
    obtain ⟨hsome, h⟩ := guard_ok h
    cases h
    rintro rfl
    exact hsome (.inl rfl)

lemma run_lift_ok {α : Type} {x : Except QueryFailure α} {n n' : ℕ} {a : α}
    (h : (liftM x : ClauseParser α).run n = .ok (a, n')) : x = .ok a ∧ n' = n := by
  cases x with
  | error failure => cases h
  | ok b =>
      cases h
      exact ⟨rfl, rfl⟩

/-- What the parser has read when it has counted from `n` to `n'`, with so many levels left. -/
structure Counted (limits : QueryLimits) (levels n n' : ℕ) (clause : Clause) : Prop where
  count : n' = n + clause.total
  bound : n' ≤ limits.maxClauses
  depth : clause.depth ≤ levels
  capped : clause.Capped limits

/-- What the parser has read of a list of clauses. -/
structure AllCounted (limits : QueryLimits) (levels n n' : ℕ) (clauses : List Clause) : Prop where
  count : n' = n + totalOf clauses
  bound : n ≤ limits.maxClauses → n' ≤ limits.maxClauses
  depth : depthOf clauses ≤ levels
  capped : AllCapped limits clauses

lemma Clause.Plain.counted {clause : Clause} (h : clause.Plain limits) {levels n n' : ℕ}
    (hcount : n' = n + 1) (hbound : n' ≤ limits.maxClauses) :
    Counted limits levels n n' clause := by
  refine ⟨?_, hbound, ?_, h.capped⟩
  · rw [h.total, hcount]
  · rw [h.depth]
    exact Nat.zero_le _

/-- A list of clauses, if each of its clauses is counted. -/
lemma mapM_counted {levels : ℕ} {parser : Value → ClauseParser Clause}
    (hparser : ∀ value n clause n', (parser value).run n = .ok (clause, n') →
      Counted limits levels n n' clause) {values : List Value} {clauses : List Clause} {n n' : ℕ}
    (h : (values.mapM parser).run n = .ok (clauses, n')) :
    AllCounted limits levels n n' clauses ∧ clauses.length = values.length := by
  induction values generalizing n clauses with
  | nil =>
      cases h
      exact ⟨⟨rfl, fun hbound => hbound, Nat.zero_le _, trivial⟩, rfl⟩
  | cons value rest ih =>
      rw [List.mapM_cons] at h
      obtain ⟨clause, m, hfirst, h⟩ := run_bind_ok h
      obtain ⟨others, m', hrest, h⟩ := run_bind_ok h
      cases h
      have hclause := hparser value n clause m hfirst
      obtain ⟨hothers, hlength⟩ := ih hrest
      refine ⟨⟨?_, fun _ => hothers.bound hclause.bound, max_le hclause.depth hothers.depth,
        hclause.capped, hothers.capped⟩, congrArg (· + 1) hlength⟩
      rw [hothers.count, hclause.count, totalOf, Nat.add_assoc]

lemma countClause_ok {n n' : ℕ} {u : Unit} (h : (countClause limits).run n = .ok (u, n')) :
    n' = n + 1 ∧ n' ≤ limits.maxClauses := by
  unfold countClause at h
  obtain ⟨m, _, hget, h⟩ := run_bind_ok h
  cases hget
  obtain ⟨_, m, hset, h⟩ := run_bind_ok h
  cases hset
  split_ifs at h with hbound
  · cases h
  · cases h
    exact ⟨rfl, not_lt.mp hbound⟩

/-- **The counter of the parser grows by the total of what is parsed**, and predicates are nested no
deeper than the levels that are left. -/
lemma parseClauseAt_counted {levels : ℕ} {value : Value} {clause : Clause} {n n' : ℕ}
    (h : (parseClauseAt limits levels value).run n = .ok (clause, n')) :
    Counted limits levels n n' clause := by
  induction levels generalizing value clause n n' with
  | zero =>
      unfold parseClauseAt at h
      obtain ⟨_, m, hcount, h⟩ := run_bind_ok h
      obtain ⟨hm, hbound⟩ := countClause_ok hcount
      obtain ⟨object, m', hobject, hform⟩ := run_bind_ok h
      obtain ⟨-, rfl⟩ := run_lift_ok hobject
      split at hform
      · obtain ⟨htriple, rfl⟩ := run_lift_ok hform
        exact (parseTriple_plain htriple).counted hm hbound
      split at hform
      · obtain ⟨hcompare, rfl⟩ := run_lift_ok hform
        exact (parseCompare_plain hcompare).counted hm hbound
      split at hform
      · obtain ⟨hreachable, rfl⟩ := run_lift_ok hform
        exact (parseReachable_plain hreachable).counted hm hbound
      dsimp only at hform
      split_ifs at hform <;> cases hform
  | succ levels ih =>
      unfold parseClauseAt at h
      obtain ⟨_, m, hcount, h⟩ := run_bind_ok h
      obtain ⟨hm, hbound⟩ := countClause_ok hcount
      obtain ⟨object, m', hobject, hform⟩ := run_bind_ok h
      obtain ⟨-, rfl⟩ := run_lift_ok hobject
      split at hform
      · obtain ⟨htriple, rfl⟩ := run_lift_ok hform
        exact (parseTriple_plain htriple).counted hm hbound
      split at hform
      · obtain ⟨hcompare, rfl⟩ := run_lift_ok hform
        exact (parseCompare_plain hcompare).counted hm hbound
      split at hform
      · obtain ⟨hreachable, rfl⟩ := run_lift_ok hform
        exact (parseReachable_plain hreachable).counted hm hbound
      have hnested : ∀ {key : String} {nested : Value} {values : List Value} {clauses : List Clause}
          {k : ℕ}, nestedValues key nested limits = .ok values →
          (values.mapM (parseClauseAt limits levels)).run m' = .ok (clauses, k) →
          (k = n + (totalOf clauses + 1) ∧ k ≤ limits.maxClauses) ∧ depthOf clauses + 1 ≤ levels + 1 ∧
            clauses ≠ [] ∧ AllCapped limits clauses := by
        intro key nested values clauses k hvalues hclauses
        obtain ⟨hall, hlength⟩ := mapM_counted (fun _ _ _ _ => ih) hclauses
        refine ⟨⟨?_, hall.bound hbound⟩, Nat.succ_le_succ hall.depth, ?_, hall.capped⟩
        · rw [hall.count, hm]
          omega
        · rintro rfl
          exact nestedValues_ne_nil hvalues (List.length_eq_zero_iff.mp hlength.symm)
      dsimp only at hform
      split at hform
      · obtain ⟨values, k, hlift, hrest⟩ := run_bind_ok hform
        obtain ⟨hvalues, rfl⟩ := run_lift_ok hlift
        obtain ⟨clauses, k', hclauses, hdone⟩ := run_bind_ok hrest
        cases hdone
        obtain ⟨⟨hk, hmost⟩, hdepth, hcapped⟩ := hnested hvalues hclauses
        exact ⟨hk, hmost, hdepth, hcapped⟩
      split at hform
      · obtain ⟨values, k, hlift, hrest⟩ := run_bind_ok hform
        obtain ⟨hvalues, rfl⟩ := run_lift_ok hlift
        obtain ⟨clauses, k', hclauses, hdone⟩ := run_bind_ok hrest
        cases hdone
        obtain ⟨⟨hk, hmost⟩, hdepth, hcapped⟩ := hnested hvalues hclauses
        exact ⟨hk, hmost, hdepth, hcapped⟩
      · cases hform

/-! ### Queries -/

lemma parseInputs_length {object inputs : Map} (h : parseInputs object limits = .ok inputs) :
    inputs.length ≤ limits.maxClauses := by
  unfold parseInputs at h
  dsimp only at h
  split at h
  · obtain ⟨found, -, h⟩ := bind_eq_ok h
    obtain ⟨hbound, h⟩ := guard_ok h
    obtain ⟨_, -, h⟩ := bind_eq_ok h
    cases h
    exact not_lt.mp hbound
  · obtain ⟨found, -, h⟩ := bind_eq_ok h
    obtain ⟨hbound, h⟩ := guard_ok h
    obtain ⟨_, -, h⟩ := bind_eq_ok h
    cases h
    exact not_lt.mp hbound
  · cases h

lemma parsePull_fields {value : Value} {pull : PullSpec} (h : parsePull value limits = .ok pull) :
    1 ≤ pull.fields.length ∧ pull.fields.length ≤ limits.maxClauses := by
  unfold parsePull at h
  obtain ⟨object, -, h⟩ := bind_eq_ok h
  obtain ⟨_, -, h⟩ := bind_eq_ok h
  obtain ⟨name, -, h⟩ := bind_eq_ok h
  have hread : ∃ fields : List String, ¬ (fields.isEmpty ∨ limits.maxClauses < fields.length) ∧
      pull.fields = fields := by
    dsimp only at h
    split at h
    · obtain ⟨kind, -, h⟩ := bind_eq_ok h
      obtain ⟨fieldValues, -, h⟩ := bind_eq_ok h
      obtain ⟨fields, -, h⟩ := bind_eq_ok h
      obtain ⟨hrange, h⟩ := guard_ok h
      obtain ⟨name, -, h⟩ := bind_eq_ok h
      cases h
      exact ⟨fields, hrange, rfl⟩
    · split_ifs at h
      · obtain ⟨kind, -, h⟩ := bind_eq_ok h
        obtain ⟨fieldValues, -, h⟩ := bind_eq_ok h
        obtain ⟨fields, -, h⟩ := bind_eq_ok h
        obtain ⟨hrange, h⟩ := guard_ok h
        obtain ⟨name, -, h⟩ := bind_eq_ok h
        cases h
        exact ⟨fields, hrange, rfl⟩
      · cases h
    · cases h
  obtain ⟨fields, hrange, hfields⟩ := hread
  rw [not_or, not_lt] at hrange
  rw [hfields]
  exact ⟨List.length_pos_iff.mpr fun hnone => hrange.1 (hnone ▸ rfl), hrange.2⟩

/-- The terms and pulls that are read of the first items of `find`. -/
structure FindWithin (limits : QueryLimits) (items : List Value)
    (found : List Term × List PullSpec) : Prop where
  count : found.1.length = items.length
  pulls : ∀ pull ∈ found.2, 1 ≤ pull.fields.length ∧ pull.fields.length ≤ limits.maxClauses

lemma parseFind_within {object : Map} {finds : List Term} {pulls : List PullSpec}
    (h : parseFind object limits = .ok (finds, pulls)) :
    ((1 ≤ finds.length ∧ finds.length ≤ limits.maxClauses) ∧ ∀ term ∈ finds, term.Capped limits) ∧
      ∀ pull ∈ pulls, 1 ≤ pull.fields.length ∧ pull.fields.length ≤ limits.maxClauses := by
  unfold parseFind at h
  obtain ⟨items, -, h⟩ := bind_eq_ok h
  obtain ⟨hsome, h⟩ := guard_ok h
  obtain ⟨hbound, h⟩ := guard_ok h
  obtain ⟨⟨terms, specs⟩, hfold, h⟩ := bind_eq_ok h
  obtain ⟨hvars, h⟩ := guard_ok h
  cases h
  have hwithin : FindWithin limits ([] ++ items) (finds, pulls) := by
    refine foldlM_traces (fun taken found next item hfound hnext => ?_)
      ⟨rfl, fun _ hmem => (List.not_mem_nil hmem).elim⟩ hfold
    dsimp only at hnext
    split at hnext
    · next pull _ =>
        have hread : ∃ spec, parsePull pull limits = .ok spec ∧
            next = (found.1 ++ [.var spec.variableName], found.2 ++ [spec]) := by
          split at hnext
          · obtain ⟨_, -, hnext⟩ := bind_eq_ok hnext
            obtain ⟨spec, hspec, hnext⟩ := bind_eq_ok hnext
            cases hnext
            exact ⟨spec, hspec, rfl⟩
          · obtain ⟨spec, hspec, hnext⟩ := bind_eq_ok hnext
            cases hnext
            exact ⟨spec, hspec, rfl⟩
        obtain ⟨spec, hspec, rfl⟩ := hread
        refine ⟨?_, fun other hother => ?_⟩
        · rw [List.length_append, hfound.count, List.length_append, List.length_singleton,
            List.length_singleton]
        · rcases List.mem_append.mp hother with hold | hnew
          · exact hfound.pulls other hold
          · rw [List.mem_singleton.mp hnew]
            exact parsePull_fields hspec
    · obtain ⟨term, -, hnext⟩ := bind_eq_ok hnext
      cases hnext
      refine ⟨?_, hfound.pulls⟩
      rw [List.length_append, hfound.count, List.length_append, List.length_singleton,
            List.length_singleton]
  have hcount : finds.length = items.length := hwithin.count
  refine ⟨⟨⟨?_, hcount ▸ not_lt.mp hbound⟩, fun term hterm => ?_⟩, hwithin.pulls⟩
  · rw [hcount]
    exact List.length_pos_iff.mpr fun hnone => hsome (hnone ▸ rfl)
  · refine Term.capped_of_asVariableName ?_
    by_contra hnot
    exact hvars (List.any_eq_true.mpr ⟨term, hterm, by simpa using hnot⟩)

lemma parseWhere_within {object : Map} {clauses : List Clause}
    (h : parseWhere object limits = .ok clauses) :
    AllCounted limits limits.maxPredicateDepth 0 (totalOf clauses) clauses ∧ clauses ≠ [] := by
  unfold parseWhere at h
  obtain ⟨values, -, h⟩ := bind_eq_ok h
  obtain ⟨⟨parsed, count⟩, hparsed, h⟩ := bind_eq_ok h
  obtain ⟨hsome, h⟩ := guard_ok h
  cases h
  obtain ⟨hall, -⟩ := mapM_counted (fun _ _ _ _ => parseClauseAt_counted) hparsed
  refine ⟨?_, ?_⟩
  · have hcount := hall.count
    rw [Nat.zero_add] at hcount
    exact hcount ▸ hall
  · rintro rfl
    exact hsome (.inl rfl)

lemma parseOrderTerm_capped {value : Value} {order : OrderTerm}
    (h : parseOrderTerm value limits = .ok order) : order.term.Capped limits := by
  unfold parseOrderTerm at h
  obtain ⟨item, -, h⟩ := bind_eq_ok h
  obtain ⟨_, -, h⟩ := bind_eq_ok h
  obtain ⟨found, -, h⟩ := bind_eq_ok h
  dsimp only at h
  split at h
  · obtain ⟨direction, -, h⟩ := bind_eq_ok h
    obtain ⟨-, h⟩ := guard_ok h
    obtain ⟨term, hterm, h⟩ := bind_eq_ok h
    cases h
    exact parseTerm_capped hterm
  · obtain ⟨direction, -, h⟩ := bind_eq_ok h
    obtain ⟨-, h⟩ := guard_ok h
    obtain ⟨term, hterm, h⟩ := bind_eq_ok h
    cases h
    exact parseTerm_capped hterm
  · cases h

lemma parseOrder_within {object : Map} {orderBy : List OrderTerm}
    (h : parseOrder object limits = .ok orderBy) :
    orderBy.length ≤ limits.maxClauses ∧ ∀ order ∈ orderBy, order.term.Capped limits := by
  unfold parseOrder at h
  have hread : ∃ values : List Value, ¬ limits.maxClauses < values.length ∧
      values.mapM (parseOrderTerm · limits) = .ok orderBy := by
    dsimp only at h
    split at h
    · obtain ⟨values, -, h⟩ := bind_eq_ok h
      obtain ⟨hbound, h⟩ := guard_ok h
      exact ⟨values, hbound, h⟩
    · obtain ⟨values, -, h⟩ := bind_eq_ok h
      obtain ⟨hbound, h⟩ := guard_ok h
      exact ⟨values, hbound, h⟩
    · cases h
  obtain ⟨values, hbound, hvalues⟩ := hread
  refine ⟨(mapM_eq_ok_iff.mp hvalues).length_eq ▸ not_lt.mp hbound, fun order horder => ?_⟩
  obtain ⟨value, -, hvalue⟩ := exists_source_of_mapM hvalues horder
  exact parseOrderTerm_capped hvalue

lemma parseLimit_within {object : Map} {defaultLimit limit : ℕ}
    (h : parseLimit object defaultLimit limits = .ok limit) :
    1 ≤ limit ∧ limit ≤ limits.maxResults := by
  unfold parseLimit at h
  dsimp only at h
  split at h
  all_goals
    obtain ⟨found, -, h⟩ := bind_eq_ok h
    obtain ⟨hrange, h⟩ := guard_ok h
    cases h
    omega

/-- **A query that is parsed keeps to its limits**: its clauses with all nested ones, how deep its
predicates are nested, its choices and depths of reachability wherever they stand, its inputs, terms,
order and pulled fields, and the size of its pages. -/
theorem parse_within {value : Value} {defaultLimit : ℕ} {spec : QuerySpec}
    (h : parse value defaultLimit limits = .ok spec) : spec.Within limits := by
  unfold parse at h
  obtain ⟨object, -, h⟩ := bind_eq_ok h
  dsimp only at h
  split at h
  · cases h
  obtain ⟨inputs, hinputs, h⟩ := bind_eq_ok h
  obtain ⟨⟨finds, pulls⟩, hfind, h⟩ := bind_eq_ok h
  obtain ⟨clauses, hclauses, h⟩ := bind_eq_ok h
  obtain ⟨orderBy, horder, h⟩ := bind_eq_ok h
  obtain ⟨limit, hlimit, h⟩ := bind_eq_ok h
  obtain ⟨cursorValues, -, h⟩ := bind_eq_ok h
  obtain ⟨_, -, h⟩ := bind_eq_ok h
  cases h
  obtain ⟨hfinds, hpulls⟩ := parseFind_within hfind
  obtain ⟨hall, hsome⟩ := parseWhere_within hclauses
  exact ⟨⟨one_le_totalOf hsome, hall.bound (Nat.zero_le _)⟩, hall.depth, hall.capped,
    hfinds, parseInputs_length hinputs, parseOrder_within horder, hpulls, parseLimit_within hlimit⟩

/-- A query of a choice in a predicate. -/
def choiceQuery : Value :=
  obj [("find", .array [.string "?m"]),
    ("where", .array [obj [("triple", obj [("subject", .string "?m"), ("attribute", .string "kind"),
        ("object", .string "claim")])],
      obj [("exists", obj [("where", .array [obj [("triple", obj [("subject", .string "?m"),
        ("attribute", .string "status"),
        ("object", obj [("one_of", .array [.string "open", .string "held"])])])]])])]])]

/-- It is parsed, and has three clauses. -/
theorem parse_within_choice :
    ∃ spec, parse choiceQuery 50 testLimits = .ok spec ∧ totalOf spec.clauses = 3 ∧
      spec.Within testLimits := by
  have hparse := Lists.eq_ok_of_isSome (x := parse choiceQuery 50 testLimits) (by decide +kernel)
    ⟨[], [], [], [], [], 0, [], testLimits⟩
  exact ⟨_, hparse, by decide +kernel, parse_within hparse⟩

end Query

end McpSurfaces
