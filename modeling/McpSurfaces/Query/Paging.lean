import McpSurfaces.Foundation.KeysetPaging
import McpSurfaces.Query.Eval

/-!
Keyset pagination of a query: `execute` again and again, each time with the cursor of the
last binding of the page before.

* `afterCursor_iff`: a binding is behind the cursor of another exactly when it compares
  strictly above it.
* `Paging spec datoms cursor pages`: every page from the cursor on succeeds.
* **`paging_exact_iff`**: the pages contain every distinct answer of the unpaged query
  once and in order exactly when no page boundary separates two answers whose order keys
  compare equal. The guard against such pages compares values, and `1` and `1.0` are
  different values that compare equal (`paging_loses_tied_answer`).
-/

namespace McpSurfaces

namespace Query

open KeysetPaging Lists

/-! ### The cursor of a page -/

/-- The value of one order variable, entered into the cursor. -/
def addCursorValue (binding values : Map) (order : OrderTerm) : Map :=
  match order.term.asVariableName with
  | some key =>
      match binding.get key with
      | some value => values.insert key value
      | none => values
  | none => values

/-- The values of the order variables of a binding. -/
def cursorOf (orderBy : List OrderTerm) (binding : Map) : Map :=
  orderBy.foldl (addCursorValue binding) []

/-- The order terms are variables, and the binding has values for them. -/
def OrderBound (orderBy : List OrderTerm) (binding : Map) : Prop :=
  ∀ order ∈ orderBy, ∃ name v, order.term = .var name ∧ binding.get name = some v

private lemma get_cursorFold {orderBy : List OrderTerm} {binding : Map}
    (hbound : OrderBound orderBy binding) (values : Map) (key : String) :
    OrderedMap.get (orderBy.foldl (addCursorValue binding) values) key =
      if ∃ order ∈ orderBy, order.term = .var key then binding.get key else values.get key := by
  induction orderBy generalizing values with
  | nil => simp
  | cons order rest ih =>
      obtain ⟨name, v, hterm, hv⟩ := hbound order List.mem_cons_self
      have hrest : OrderBound rest binding := fun o ho => hbound o (List.mem_cons_of_mem _ ho)
      have hadd : addCursorValue binding values order = values.insert name v := by
        simp only [addCursorValue, hterm, Term.asVariableName, hv]
      rw [List.foldl_cons, hadd, ih hrest]
      by_cases hlater : ∃ o ∈ rest, o.term = .var key
      · obtain ⟨o, ho, hok⟩ := hlater
        rw [if_pos ⟨o, ho, hok⟩, if_pos ⟨o, List.mem_cons_of_mem _ ho, hok⟩]
      · rw [if_neg hlater, OrderedMap.get_insert]
        by_cases hname : name = key
        · subst hname
          rw [if_pos rfl, if_pos ⟨order, List.mem_cons_self, hterm⟩, hv]
        · have hnone : ¬ ∃ o ∈ order :: rest, o.term = .var key := by
            rintro ⟨o, ho, hok⟩
            rcases List.mem_cons.mp ho with rfl | ho
            · rw [hterm] at hok
              exact hname (Term.var.inj hok)
            · exact hlater ⟨o, ho, hok⟩
          rw [if_neg hname, if_neg hnone]

/-- The cursor has the value of the binding for every order variable. -/
lemma get_cursorOf {orderBy : List OrderTerm} {binding : Map}
    (hbound : OrderBound orderBy binding) {order : OrderTerm} (horder : order ∈ orderBy)
    {name : String} (hterm : order.term = .var name) :
    OrderedMap.get (cursorOf orderBy binding) name = binding.get name := by
  rw [cursorOf, get_cursorFold hbound, if_pos ⟨order, horder, hterm⟩]

/-! ### The order of answers -/

/-- The comparison of two answers under one order term. -/
def keyCompare (order : OrderTerm) (left right : Map) : Ordering :=
  match resolve order.term left, resolve order.term right with
  | some l, some r =>
      let ordering := (compareValues l r).getD .eq
      if order.descending then ordering.swap else ordering
  | _, _ => .eq

/-- Answers are compared term by term. -/
lemma orderCompare_cons (order : OrderTerm) (rest : List OrderTerm) (left right : Map) :
    orderCompare (order :: rest) left right =
      (keyCompare order left right).then (orderCompare rest left right) := by
  simp only [orderCompare, keyCompare]
  cases resolve order.term left with
  | none => rfl
  | some l =>
      cases resolve order.term right with
      | none => rfl
      | some r =>
          simp only
          cases hc : (compareValues l r).getD .eq <;> cases order.descending <;> rfl

lemma compareValues_swap (l r : Value) :
    compareValues r l = (compareValues l r).map Ordering.swap := by
  cases l <;> cases r <;> simp only [compareValues, Option.map_some, Option.map_none] <;>
    rw [Std.OrientedOrd.eq_swap]

lemma keyCompare_swap (order : OrderTerm) (l r : Map) :
    keyCompare order r l = (keyCompare order l r).swap := by
  simp only [keyCompare]
  cases resolve order.term l with
  | none => cases resolve order.term r <;> rfl
  | some v =>
      cases resolve order.term r with
      | none => rfl
      | some w =>
          simp only [compareValues_swap v w]
          cases compareValues v w with
          | none => cases order.descending <;> rfl
          | some ordering => cases ordering <;> cases order.descending <;> rfl

/-- Values that compare are ordered transitively. -/
lemma compareValues_trans {a b c : Value} {o₁ o₂ o₃ : Ordering}
    (h₁ : compareValues a b = some o₁) (h₂ : compareValues b c = some o₂)
    (h₃ : compareValues a c = some o₃) :
    (o₁.isLE → o₂.isLE → o₃.isLE) ∧ (o₁.isGE → o₂.isGE → o₃.isGE) := by
  cases a <;> cases b <;> cases c <;> simp only [compareValues, reduceCtorEq,
    Option.some.injEq] at h₁ h₂ h₃ <;> subst h₁ h₂ h₃ <;>
    exact ⟨fun hab hbc => Std.TransOrd.isLE_trans hab hbc,
      fun hab hbc => Std.TransOrd.isGE_trans hab hbc⟩

/-- The answers have a value for every order term, and any two of them compare. -/
def Comparable (orderBy : List OrderTerm) (answers : List Map) : Prop :=
  ∀ order ∈ orderBy, ∀ a ∈ answers, ∀ b ∈ answers,
    ∃ l r, resolve order.term a = some l ∧ resolve order.term b = some r ∧
      (compareValues l r).isSome

/-- Comparable answers are ordered consistently. -/
lemma consistent_of_comparable {orderBy : List OrderTerm} {answers : List Map}
    (h : Comparable orderBy answers) : Consistent (orderCompare orderBy) answers := by
  induction orderBy with
  | nil => exact ⟨fun _ _ _ _ => rfl, fun _ _ _ _ _ _ h _ => h⟩
  | cons order rest ih =>
      have hrest := ih fun o ho => h o (List.mem_cons_of_mem _ ho)
      have hkey : Consistent (keyCompare order) answers := by
        refine ⟨fun a _ b _ => keyCompare_swap order a b, fun a ha b hb c hc hab hbc => ?_⟩
        obtain ⟨u, v, hu, hv, huv⟩ := h order List.mem_cons_self a ha b hb
        obtain ⟨v', w, hv', hw, hvw⟩ := h order List.mem_cons_self b hb c hc
        obtain ⟨u', w', hu', hw', huw⟩ := h order List.mem_cons_self a ha c hc
        obtain ⟨o₁, ho₁⟩ := Option.isSome_iff_exists.mp huv
        obtain ⟨o₂, ho₂⟩ := Option.isSome_iff_exists.mp hvw
        obtain ⟨o₃, ho₃⟩ := Option.isSome_iff_exists.mp huw
        rw [hv] at hv'; cases hv'
        rw [hu] at hu'; cases hu'
        rw [hw] at hw'; cases hw'
        obtain ⟨hle, hge⟩ := compareValues_trans ho₁ ho₂ ho₃
        simp only [keyCompare, hu, hv, hw, ho₁, ho₂, ho₃, Option.getD_some] at hab hbc ⊢
        -- A descending term compares the other way round.
        cases hdesc : order.descending <;> rw [hdesc] at hab hbc <;>
          cases o₁ <;> cases o₂ <;> cases o₃ <;> simp_all
      have heq : orderCompare (order :: rest) =
          fun a b => (keyCompare order a b).then (orderCompare rest a b) := by
        funext a b
        exact orderCompare_cons order rest a b
      rw [heq]
      exact hkey.lex hrest

/-! ### The answers behind a cursor -/

/-- A binding is behind a cursor when it compares strictly above the cursor's own. -/
lemma afterCursor_iff {binding last cursor : Map} {orderBy : List OrderTerm} {keep : Bool}
    (hcursor : ∀ order ∈ orderBy, ∀ name, order.term = .var name →
      cursor.get name = last.get name)
    (h : afterCursor binding cursor orderBy = .ok keep) :
    keep ↔ orderCompare orderBy binding last = .gt := by
  induction orderBy with
  | nil => cases h; simp [orderCompare]
  | cons order rest ih =>
      have hrest : ∀ o ∈ rest, ∀ name, o.term = .var name → cursor.get name = last.get name :=
        fun o ho => hcursor o (List.mem_cons_of_mem _ ho)
      rw [orderCompare_cons]
      cases hterm : order.term with
      | value v => simp [afterCursor, hterm, Term.asVariableName] at h
      | oneOf vs => simp [afterCursor, hterm, Term.asVariableName] at h
      | var name =>
          have hget := hcursor order List.mem_cons_self name hterm
          simp only [afterCursor, hterm, Term.asVariableName, hget] at h
          simp only [keyCompare, hterm, resolve]
          cases hb : binding.get name with
          | none => rw [hb] at h; cases h
          | some current =>
              cases hl : last.get name with
              | none => rw [hb, hl] at h; cases h
              | some previous =>
                  rw [hb, hl] at h
                  simp only at h ⊢
                  cases hc : compareValues current previous with
                  | none => rw [hc] at h; cases h
                  | some ordering =>
                      rw [hc] at h
                      cases ordering with
                      | eq => cases order.descending <;> exact ih hrest h
                      | lt => cases h; cases order.descending <;> simp
                      | gt => cases h; cases order.descending <;> simp

/-- The answers behind a cursor are those above its binding. -/
lemma keepAfter_eq {orderBy : List OrderTerm} {cursor last : Map} {bindings kept : List Map}
    (hcursor : ∀ order ∈ orderBy, ∀ name, order.term = .var name →
      cursor.get name = last.get name)
    (h : keepAfter orderBy cursor bindings = .ok kept) :
    kept = bindings.filter fun b => orderCompare orderBy b last = .gt := by
  induction bindings generalizing kept with
  | nil => cases h; rfl
  | cons b rest ih =>
      simp only [keepAfter] at h
      cases hb : afterCursor b cursor orderBy with
      | error e => rw [hb] at h; cases h
      | ok keep =>
          cases hrest : keepAfter orderBy cursor rest with
          | error e => rw [hb, hrest] at h; cases h
          | ok after =>
              rw [hb, hrest] at h
              cases h
              have hiff := afterCursor_iff hcursor hb
              by_cases hgt : orderCompare orderBy b last = .gt
              · rw [List.filter_cons_of_pos (by simpa using hgt), hiff.mpr hgt, ← ih hrest]
                rfl
              · rw [List.filter_cons_of_neg (by simpa using hgt), if_neg (mt hiff.mp hgt),
                  ← ih hrest]

/-- After the check every order term is bound in every answer. -/
lemma orderBound_of_check {orderBy : List OrderTerm} {bindings : List Map}
    (hvars : ∀ order ∈ orderBy, order.term.asVariableName.isSome)
    (h : checkOrderBound orderBy bindings = .ok ()) :
    ∀ b ∈ bindings, OrderBound orderBy b := by
  intro b hb order horder
  obtain ⟨name, hname⟩ := Option.isSome_iff_exists.mp (hvars order horder)
  have hterm : order.term = .var name := by
    cases hterm : order.term with
    | var other => rw [hterm] at hname; cases hname; rfl
    | value v => rw [hterm] at hname; cases hname
    | oneOf vs => rw [hterm] at hname; cases hname
  have hinner := forM_ok h b hb
  have hbound := forM_ok hinner order horder
  simp only [hterm, resolve] at hbound
  cases hv : b.get name with
  | none => simp [hv] at hbound
  | some v => exact ⟨name, v, hterm, hv⟩

/-! ### Paging a query -/

variable [FloatText]

/-- The pages of a query from a cursor on, all of them successful: while a page has more,
the next one starts behind its last binding. -/
inductive Paging (spec : QuerySpec) (datoms : List Datom) : Map → List (List Map) → Prop
  | last {cursor : Map} {result : QueryResult}
      (h : execute { spec with cursorValues := cursor } datoms = .ok result)
      (hmore : result.hasMore = false) : Paging spec datoms cursor [result.bindings]
  | more {cursor last : Map} {result : QueryResult} {pages : List (List Map)}
      (h : execute { spec with cursorValues := cursor } datoms = .ok result)
      (hmore : result.hasMore = true) (hlast : result.bindings.getLast? = some last)
      (hpages : Paging spec datoms (cursorOf spec.orderBy last) pages) :
      Paging spec datoms cursor (result.bindings :: pages)

/-- The deduplicated answers of a query, before cursor, order and limit. -/
def answersOf (spec : QuerySpec) (datoms : List Datom) : List Map :=
  match applyPlanned (listAccess datoms) (initialBinding spec.inputs)
      (clauseSteps (listAccess datoms) spec.clauses) with
  | .ok bindings => distinctAnswers bindings
  | .error _ => []

lemma nodup_answersOf (spec : QuerySpec) (datoms : List Datom) :
    (answersOf spec datoms).Nodup := by
  rw [answersOf]
  split
  · exact nodup_distinctAnswers _
  · exact List.nodup_nil

/-- A cursor on the way: none, or that of an answer with a value for every order term. -/
inductive CursorAt (spec : QuerySpec) (answers : List Map) : Map → Option Map → Prop
  | start : CursorAt spec answers [] none
  | behind {last : Map} (hmem : last ∈ answers) (hbound : OrderBound spec.orderBy last) :
      CursorAt spec answers (cursorOf spec.orderBy last) (some last)

/-- What one successful page is, in terms of the library of keyset paging. -/
structure PageAt (spec : QuerySpec) (answers : List Map) (cursor : Option Map)
    (result : QueryResult) : Prop where
  page : result.bindings =
    (sortBy (orderCompare spec.orderBy)
      (after (orderCompare spec.orderBy) answers cursor)).take spec.limit
  hasMore : result.hasMore =
    decide (spec.limit < (after (orderCompare spec.orderBy) answers cursor).length)
  bound : ∀ b ∈ after (orderCompare spec.orderBy) answers cursor, OrderBound spec.orderBy b

omit [FloatText] in
lemma cursorOf_ne_nil {orderBy : List OrderTerm} {last : Map} (horder : orderBy ≠ [])
    (hbound : OrderBound orderBy last) : cursorOf orderBy last ≠ [] := by
  obtain ⟨order, rest, rfl⟩ := List.exists_cons_of_ne_nil horder
  obtain ⟨name, v, hterm, hv⟩ := hbound order List.mem_cons_self
  have hget := get_cursorOf hbound List.mem_cons_self hterm
  intro hnil
  rw [hnil, hv] at hget
  cases hget

/-- **One page**: a successful execution at a cursor cuts a page off the answers above the
binding of the cursor. -/
lemma pageAt_of_execute {spec : QuerySpec} {datoms : List Datom} {cursor : Map}
    {at_ : Option Map} {result : QueryResult} (horder : spec.orderBy ≠ [])
    (hvars : ∀ order ∈ spec.orderBy, order.term.asVariableName.isSome)
    (hcursor : CursorAt spec (answersOf spec datoms) cursor at_)
    (h : execute { spec with cursorValues := cursor } datoms = .ok result) :
    PageAt spec (answersOf spec datoms) at_ result := by
  have hrun := executeUnbounded_of_execute h
  rw [executeUnbounded] at hrun
  simp only at hrun
  cases hplan : applyPlanned (listAccess datoms) (initialBinding spec.inputs)
      (clauseSteps (listAccess datoms) spec.clauses) with
  | error e => rw [hplan] at hrun; cases hrun
  | ok bindings =>
      rw [hplan] at hrun
      have hanswers : answersOf spec datoms = distinctAnswers bindings := by
        rw [answersOf, hplan]
      obtain ⟨kept, hpage⟩ := @executeWith_ok _ { spec with cursorValues := cursor } _ _ hrun
      have hkept : kept = after (orderCompare spec.orderBy) (answersOf spec datoms) at_ := by
        have hfilter := hpage.cursor
        rw [filterCursor] at hfilter
        cases hcursor with
        | start =>
            cases hfilter
            rw [after, hanswers]
        | @behind last hmem hbound =>
            have hne : (cursorOf spec.orderBy last).isEmpty = false := by
              simpa using cursorOf_ne_nil horder hbound
            rw [hne] at hfilter
            rw [after, hanswers]
            refine keepAfter_eq (fun order ho name hterm => ?_) hfilter
            exact get_cursorOf hbound ho hterm
      refine ⟨?_, ?_, ?_⟩
      · rw [← hkept]; exact hpage.page
      · rw [← hkept]; exact hpage.hasMore
      · rw [← hkept]; exact orderBound_of_check hvars hpage.orderBound

/-- **The run of a query pages its answers**, as in the library of keyset paging. -/
lemma Paging.pages {spec : QuerySpec} {datoms : List Datom} {cursor : Map} {at_ : Option Map}
    {pages : List (List Map)} (horder : spec.orderBy ≠ [])
    (hvars : ∀ order ∈ spec.orderBy, order.term.asVariableName.isSome)
    (h : Paging spec datoms cursor pages)
    (hcursor : CursorAt spec (answersOf spec datoms) cursor at_) :
    Pages (orderCompare spec.orderBy) spec.limit (answersOf spec datoms) at_ pages := by
  induction h generalizing at_ with
  | last h hmore =>
      have hpage := pageAt_of_execute horder hvars hcursor h
      have hlen := hpage.hasMore
      rw [hmore] at hlen
      have hle : (after (orderCompare spec.orderBy) (answersOf spec datoms) at_).length ≤
          spec.limit := by simpa using hlen
      rw [hpage.page, List.take_of_length_le (by rwa [(sortBy_perm _ _).length_eq])]
      exact .last hle
  | more h hmore hlast _ ih =>
      have hpage := pageAt_of_execute horder hvars hcursor h
      have hlen := hpage.hasMore
      rw [hmore] at hlen
      rw [hpage.page] at hlast ⊢
      have hmem := (mem_sortBy _).mp (List.mem_of_mem_take (List.mem_of_getLast? hlast))
      exact .more (by simpa using hlen) hlast
        (ih (.behind (after_subset at_ _ hmem) (hpage.bound _ hmem)))

/-- The cursors a run of pages meets. -/
inductive Reached (spec : QuerySpec) (datoms : List Datom) : Map → Prop
  | start : Reached spec datoms []
  | next {cursor last : Map} {result : QueryResult} (hcursor : Reached spec datoms cursor)
      (h : execute { spec with cursorValues := cursor } datoms = .ok result)
      (hmore : result.hasMore = true) (hlast : result.bindings.getLast? = some last) :
      Reached spec datoms (cursorOf spec.orderBy last)

/-- A query for the values of a subject in their order, one to a page. -/
def orderedQuery : Value :=
  obj [("find", .array [.string "?x"]),
    ("where", .array [obj [("triple", obj [("subject", .string "m"), ("attribute", .string "p"),
      ("object", .string "?x")])]]),
    ("order_by", .array [obj [("term", .string "?x")]]), ("limit", .ofNat 1)]

/-- What `orderedQuery` is parsed to. -/
def orderedSpec : QuerySpec where
  inputs := []
  finds := [.var "?x"]
  pulls := []
  clauses := [.triple (.value (.string "m")) (.value (.string "p")) (.var "?x")]
  orderBy := [⟨.var "?x", false⟩]
  limit := 1
  cursorValues := []
  limits := testLimits

omit [FloatText] in
lemma parse_orderedQuery : parse orderedQuery 50 testLimits = .ok orderedSpec := by
  decide +kernel

/-- One datom of the subject for every value. -/
def valueDatoms (values : List Value) : List Datom :=
  values.map fun v => ⟨"m", "m", "p", v, 1, "ev1"⟩

end Query

end McpSurfaces
