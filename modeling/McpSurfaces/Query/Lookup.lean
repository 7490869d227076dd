import McpSurfaces.Foundation.Lists
import McpSurfaces.Query.Index
import McpSurfaces.Query.Parse

/-!
The index of datoms against the scan of the whole list.

* **`applyTriple_perm_iff`**: evaluated through the index, a triple clause gives the
  answers of the scan exactly when every datom with an equal value has that value's
  text. The value index compares texts and `unify` compares values, and objects that
  differ in the order of their keys are one value with two texts
  (`applyTriple_drops_reordered_object`).
-/

namespace McpSurfaces

namespace Query

/-! ### `unify` on a triple -/

lemma unify_string_of_resolveStr {term : Term} {binding : Map} {s t : String}
    (h : resolveStr term binding = some s) (hu : (unify term (.string t) binding).isSome) :
    s = t := by
  obtain ⟨v, hv, hs⟩ := Option.bind_eq_some_iff.mp h
  rw [Value.asStr_eq_some] at hs
  subst hs
  cases term with
  | var name =>
      have hget : binding.get name = some (.string s) := hv
      simp only [unify, hget] at hu
      split_ifs at hu with he
      · exact (Value.string.inj (Value.string_eqv.mp he)).symm
      · simp at hu
  | value w =>
      cases (Option.some.inj hv : w = .string s)
      simp only [unify] at hu
      split_ifs at hu with he
      · exact (Value.string.inj (Value.string_eqv.mp he)).symm
      · simp at hu
  | oneOf values => cases hv

/-- A term with a value unifies with the values equal to it and leaves the binding. -/
lemma unify_of_resolve {term : Term} {binding : Map} {v w : Value}
    (h : resolve term binding = some v) :
    unify term w binding = if v.eqv w then some binding else none := by
  cases term with
  | var name =>
      have hget : binding.get name = some v := h
      simp only [unify, hget]
  | value u => cases h; rfl
  | oneOf values => cases h

/-- What `unify` gives extends the binding. -/
lemma resolve_of_unify {term other : Term} {binding after : Map} {v w : Value}
    (hu : unify term w binding = some after) (h : resolve other binding = some v) :
    resolve other after = some v := by
  cases other with
  | var name =>
      have hget : binding.get name = some v := h
      cases term with
      | var name' =>
          simp only [unify] at hu
          cases hname' : binding.get name' with
          | some existing =>
              rw [hname'] at hu
              simp only at hu
              split_ifs at hu
              cases hu
              exact h
          | none =>
              rw [hname'] at hu
              cases hu
              have hne : name' ≠ name := by
                rintro rfl
                rw [hget] at hname'
                cases hname'
              exact (OrderedMap.get_insert_of_ne binding w hne).trans hget
      | value u =>
          simp only [unify] at hu
          split_ifs at hu
          cases hu
          exact h
      | oneOf values =>
          simp only [unify] at hu
          split_ifs at hu
          cases hu
          exact h
  | value u => exact h
  | oneOf values => cases h

/-- With attribute and object bound, `unify` on a triple asks three things of a datom. -/
lemma unifyTriple_isSome_of_resolved {subject attr object : Term} {binding : Map} {a : String}
    {v : Value} (hattr : resolve attr binding = some (.string a))
    (hobject : resolve object binding = some v) (datom : Datom) :
    (unifyTriple subject attr object binding datom).isSome ↔
      (unify subject (.string datom.subject) binding).isSome ∧ a = datom.attr ∧
        v.eqv datom.value := by
  unfold unifyTriple
  cases hs : unify subject (.string datom.subject) binding with
  | none => simp
  | some after =>
      have hattr' := unify_of_resolve (w := .string datom.attr) (resolve_of_unify hs hattr)
      have hobject' := unify_of_resolve (w := datom.value) (resolve_of_unify hs hobject)
      simp only [Option.bind_some, Option.isSome_some, true_and, hattr']
      by_cases ha : a = datom.attr
      · have heqv : Value.eqv (.string a) (.string datom.attr) := by simp [ha]
        rw [if_pos heqv, Option.bind_some, hobject']
        by_cases hv : v.eqv datom.value
        · rw [if_pos hv]; simp [ha, hv]
        · rw [if_neg hv]; simp [hv]
      · have hne : ¬ Value.eqv (.string a) (.string datom.attr) := by
          rw [Value.string_eqv]
          exact fun h => ha (Value.string.inj h).symm
        rw [if_neg hne]
        simp [ha]

/-! ### The index against the scan -/

variable [FloatText]

/-- The value index has every datom it should: where it is used, a datom with the
attribute, an accepted subject and an equal value has that value's text. -/
def ValueIndexed (datoms : List Datom) (subject attr object : Term) (binding : Map) : Prop :=
  ∀ a value, resolveStr subject binding = none → resolveStr attr binding = some a →
    resolve object binding = some value →
    ∀ datom ∈ datoms, (unify subject (.string datom.subject) binding).isSome → datom.attr = a →
      value.eqv datom.value → stableValueKey datom.value = stableValueKey value

omit [FloatText] in
private lemma resolve_of_resolveStr {term : Term} {binding : Map} {s : String}
    (h : resolveStr term binding = some s) : resolve term binding = some (.string s) := by
  obtain ⟨v, hv, hs⟩ := Option.bind_eq_some_iff.mp h
  rw [Value.asStr_eq_some] at hs
  rw [hv, hs]

omit [FloatText] in
/-- The subject and the attribute of a datom that `unify` accepts. -/
private lemma unify_parts {subject attr object : Term} {binding : Map} {datom : Datom}
    (h : (unifyTriple subject attr object binding datom).isSome) :
    (unify subject (.string datom.subject) binding).isSome ∧
      ∀ a, resolveStr attr binding = some a → a = datom.attr := by
  unfold unifyTriple at h
  cases hs : unify subject (.string datom.subject) binding with
  | none => rw [hs] at h; simp at h
  | some after =>
      refine ⟨rfl, fun a ha => ?_⟩
      have hafter : resolveStr attr after = some a := by
        rw [resolveStr, resolve_of_unify hs (resolve_of_resolveStr ha)]
        rfl
      rw [hs, Option.bind_some] at h
      cases hu : unify attr (.string datom.attr) after with
      | none => rw [hu] at h; simp at h
      | some after' => exact unify_string_of_resolveStr hafter (by rw [hu]; rfl)

/-- A datom that `unify` accepts is a candidate, whichever index path is used, once the
value index is complete. -/
lemma isCandidate_of_unify {datoms : List Datom} {subject attr object : Term} {binding : Map}
    (hindexed : ValueIndexed datoms subject attr object binding) {datom : Datom}
    (hmem : datom ∈ datoms) (h : (unifyTriple subject attr object binding datom).isSome) :
    isCandidate subject attr object binding datom := by
  obtain ⟨hsubject, hattr⟩ := unify_parts h
  unfold isCandidate
  cases hs : resolveStr subject binding with
  | some s =>
      have hsd := unify_string_of_resolveStr hs hsubject
      cases ha : resolveStr attr binding with
      | some a => simp [hsd, hattr a ha]
      | none => simp [hsd]
  | none =>
      cases ha : resolveStr attr binding with
      | some a =>
          have had := hattr a ha
          cases ho : resolve object binding with
          | some value =>
              obtain ⟨-, -, hv⟩ :=
                (unifyTriple_isSome_of_resolved (resolve_of_resolveStr ha) ho datom).mp h
              have hkey := hindexed a value hs ha ho datom hmem hsubject had.symm hv
              simp [had, hkey]
          | none => simp [had]
      | none => rfl

/-- With a complete value index nothing is dropped, and the order is that of the list. -/
lemma tripleAnswers_eq_filterMap {datoms : List Datom} {subject attr object : Term}
    {binding : Map} (hindexed : ValueIndexed datoms subject attr object binding) :
    tripleAnswers datoms binding subject attr object =
      datoms.filterMap (unifyTriple subject attr object binding) :=
  Lists.filterMap_filter_eq fun _ hd hu => isCandidate_of_unify hindexed hd hu

/-- Answers in the number of the scan need a complete value index. -/
lemma valueIndexed_of_length {datoms : List Datom} {subject attr object : Term} {binding : Map}
    (h : (tripleAnswers datoms binding subject attr object).length =
      (datoms.filterMap (unifyTriple subject attr object binding)).length) :
    ValueIndexed datoms subject attr object binding := by
  intro a value hs ha ho datom hmem hsubject hattr hv
  have hu := (unifyTriple_isSome_of_resolved (resolve_of_resolveStr ha) ho datom).mpr
    ⟨hsubject, hattr.symm, hv⟩
  have hc := Lists.kept_of_length_eq h datom hmem hu
  simpa [isCandidate, hs, ha, ho, hattr] using hc

/-- The value index is complete where objects are bound to scalars: they have one text. -/
lemma valueIndexed_of_scalar {datoms : List Datom} {subject attr object : Term} {binding : Map}
    (h : ∀ value, resolve object binding = some value → value.Scalar) :
    ValueIndexed datoms subject attr object binding := by
  intro a value _ _ ho datom _ _ _ hv
  rw [(Value.eqv_iff_of_scalar (h value ho)).mp hv]

/-- **The index against the scan**: on a budget large enough for both, a triple clause
evaluated through the index gives the multiset of bindings that `unify` gives over all
the datoms if and only if the value index is complete. -/
theorem applyTriple_perm_iff (datoms : List Datom) (subject attr object : Term) (binding : Map)
    (budget : ExecutionBudget)
    (hscan : budget.datomsScanned + datoms.length ≤ budget.limits.maxDatomsScanned)
    (hwork : datoms.length ≤ budget.workLimit) :
    (∃ results budget',
      (applyTriple binding subject attr object (DatomIndex.new datoms)).run budget =
          .ok (results, budget') ∧
        results.Perm (datoms.filterMap (unifyTriple subject attr object binding))) ↔
      ValueIndexed datoms subject attr object binding := by
  obtain ⟨budget', hrun⟩ := applyTriple_run datoms binding subject attr object budget hscan hwork
  constructor
  · rintro ⟨results, budget'', hok, hperm⟩
    rw [hrun] at hok
    cases hok
    exact valueIndexed_of_length hperm.length_eq
  · intro hindexed
    refine ⟨_, budget', hrun, ?_⟩
    rw [tripleAnswers_eq_filterMap hindexed]

omit [FloatText] in
/-- The scan and the index agree on a value index that is complete: here the object is
bound to a text. -/
theorem applyTriple_perm_scalar :
    ∃ results budget',
      (@applyTriple FloatText.fields [("?t", .string "hello")] (.var "?m") (.value (.string "p"))
          (.var "?t") (@DatomIndex.new FloatText.fields [⟨"m", "m", "p", .string "hello", 1, "ev1"⟩])).run
          (ExecutionBudget.new testLimits 1000) = .ok (results, budget') ∧
        results.Perm (([⟨"m", "m", "p", .string "hello", 1, "ev1"⟩] : List Datom).filterMap
          (unifyTriple (.var "?m") (.value (.string "p")) (.var "?t")
            [("?t", .string "hello")])) := by
  refine (@applyTriple_perm_iff FloatText.fields _ _ _ _ _ _ (by decide) (by decide)).mpr ?_
  refine @valueIndexed_of_scalar FloatText.fields _ _ _ _ _ fun value hvalue => ?_
  cases hvalue
  decide

/-- A query for the subjects of one structured value. -/
def reorderedQuery : Value :=
  obj [("find", .array [.string "?m"]),
    ("where", .array [obj [("triple", obj [("subject", .string "?m"), ("attribute", .string "p"),
      ("object", obj [("value", obj [("b", .ofNat 2), ("a", .ofNat 1)])])])]])]

/-- A datom with the value of `reorderedQuery`, its keys in another order. -/
def reorderedDatom : Datom :=
  ⟨"m", "m", "p", obj [("a", .ofNat 1), ("b", .ofNat 2)], 1, "ev1"⟩

omit [FloatText] in
/-- The index drops a datom that `unify` accepts: the object of the parsed query is the
value of the datom with its keys in another order. -/
theorem applyTriple_drops_reordered_object :
    ((parse reorderedQuery 50 testLimits).toOption.map fun spec =>
        spec.clauses.map Clause.asTriple) =
      some [some (.var "?m", .value (.string "p"),
        .value (obj [("b", .ofNat 2), ("a", .ofNat 1)]))] ∧
    ((@applyTriple FloatText.fields [] (.var "?m") (.value (.string "p"))
        (.value (obj [("b", .ofNat 2), ("a", .ofNat 1)]))
        (@DatomIndex.new FloatText.fields [reorderedDatom])).run
        (ExecutionBudget.new testLimits 10000)).toOption.map Prod.fst = some [] ∧
    [reorderedDatom].filterMap (unifyTriple (.var "?m") (.value (.string "p"))
        (.value (obj [("b", .ofNat 2), ("a", .ofNat 1)])) []) = [[("?m", .string "m")]] := by
  decide +kernel

end Query

end McpSurfaces
