import McpSurfaces.Query.Eval
import McpSurfaces.Query.Lookup
import McpSurfaces.Query.Semantics

/-!
The evaluator against the meaning of a query, on scalar values.

* `ClauseAdequate`: applied to a binding, a clause gives its solutions over the binding;
  `PlanState` is the invariant of the planner's loop, that the bindings are the solutions
  of the clauses applied so far, all with the same keys.
* `planLoop_adequate`: from the invariant the loop ends in the solutions of all the
  clauses, whatever the order it takes them in. A blocked clause fails, so that a result
  never comes from one.
* `applyClause_adequate`: by induction on the nesting every clause is adequate.
* **`execute_bindings_iff`**: what `execute` returns without a cursor on a large enough
  page are the solutions of the query.
-/

namespace McpSurfaces

namespace Query

open Assignment BoundedSearch

/-! ### Bindings of scalars -/

/-- A binding of distinct variables to scalars. -/
structure ScalarBinding (b : Map) : Prop where
  nodup : b.keys.Nodup
  scalar : ∀ e ∈ b, e.2.Scalar

/-- The keys after variables are bound, new ones last. -/
def addVars (keys vars : List String) : List String :=
  vars.foldl (fun keys x => if x ∈ keys then keys else keys ++ [x]) keys

lemma mem_addVars {keys vars : List String} {x : String} :
    x ∈ addVars keys vars ↔ x ∈ keys ∨ x ∈ vars := by
  induction vars generalizing keys with
  | nil => simp [addVars]
  | cons y vars ih =>
      have hcons : addVars keys (y :: vars) =
          addVars (if y ∈ keys then keys else keys ++ [y]) vars := rfl
      rw [hcons, ih]
      by_cases hy : y ∈ keys
      · rw [if_pos hy, List.mem_cons]
        constructor
        · rintro (h | h)
          · exact Or.inl h
          · exact Or.inr (Or.inr h)
        · rintro (h | rfl | h)
          · exact Or.inl h
          · exact Or.inl hy
          · exact Or.inr h
      · rw [if_neg hy]
        simp only [List.mem_append, List.mem_cons, List.not_mem_nil, or_false, or_assoc]

lemma addVars_append (keys xs ys : List String) :
    addVars keys (xs ++ ys) = addVars (addVars keys xs) ys :=
  List.foldl_append

/-- Variables that have keys add none. -/
lemma addVars_of_subset {keys vars : List String} (h : ∀ x ∈ vars, x ∈ keys) :
    addVars keys vars = keys := by
  induction vars with
  | nil => rfl
  | cons y vars ih =>
      have hcons : addVars keys (y :: vars) =
          addVars (if y ∈ keys then keys else keys ++ [y]) vars := rfl
      rw [hcons, if_pos (h y List.mem_cons_self)]
      exact ih fun x hx => h x (List.mem_cons_of_mem _ hx)

/-- A binding as an assignment. -/
def assignmentOf (b : Map) : Assignment String Value := OrderedMap.get b

lemma assignmentOf_isSome_iff {b : Map} {x : String} : (assignmentOf b x).isSome ↔ x ∈ b.keys :=
  OrderedMap.get_isSome_iff

lemma resolve_eq_denote (t : Term) (b : Map) : resolve t b = t.denote (assignmentOf b) := by
  cases t <;> rfl

/-- Bindings with the same keys that assign the same values are equal. -/
lemma binding_ext {b b' : Map} (hb : b.keys.Nodup) (hkeys : b.keys = b'.keys)
    (h : assignmentOf b = assignmentOf b') : b = b' := by
  induction b generalizing b' with
  | nil =>
      cases b' with
      | nil => rfl
      | cons e b' => simp at hkeys
  | cons e b ih =>
      cases b' with
      | nil => simp at hkeys
      | cons e' b' =>
          obtain ⟨k, v⟩ := e
          obtain ⟨k', v'⟩ := e'
          simp only [OrderedMap.keys_cons, List.cons.injEq] at hkeys
          obtain ⟨rfl, hkeys⟩ := hkeys
          rw [OrderedMap.keys_cons, List.nodup_cons] at hb
          have hv : v = v' := by
            have hk := congrFun h k
            simpa [assignmentOf, OrderedMap.get_cons] using hk
          have htail : assignmentOf b = assignmentOf b' := by
            funext x
            by_cases hx : k = x
            · subst hx
              have h₁ : OrderedMap.get b k = none := OrderedMap.get_eq_none_iff.mpr hb.1
              have h₂ : OrderedMap.get b' k = none :=
                OrderedMap.get_eq_none_iff.mpr (hkeys ▸ hb.1)
              rw [assignmentOf, assignmentOf, h₁, h₂]
            · have hxk := congrFun h x
              simpa [assignmentOf, OrderedMap.get_cons, hx] using hxk
          rw [hv, ih hb.2 hkeys htail]

/-! ### One term -/

/-- What one step of `unify` and each clause give for a binding: a binding of scalars
with the new variables last. -/
structure Bound (b b' : Map) (vars : List String) : Prop where
  binding : ScalarBinding b'
  keys : b'.keys = addVars b.keys vars

/-- `unify` gives a binding under which the term is the value. -/
lemma unify_sound {t : Term} {v : Value} {b b' : Map} (hb : ScalarBinding b) (hv : v.Scalar)
    (ht : ∀ w ∈ t.consts, w.Scalar) (h : unify t v b = some b') :
    Bound b b' t.vars ∧ Extends (assignmentOf b) (assignmentOf b') {x | x ∈ t.vars} ∧
      t.Is (assignmentOf b') v := by
  cases t with
  | var name =>
      simp only [unify] at h
      cases hget : b.get name with
      | some existing =>
          rw [hget] at h
          simp only at h
          split_ifs at h with heqv
          cases h
          have hmem := OrderedMap.mem_of_get hget
          have hkey : name ∈ b.keys := List.mem_map_of_mem (f := Prod.fst) hmem
          have heq := (Value.eqv_iff_of_scalar (hb.scalar _ hmem)).mp heqv
          refine ⟨⟨hb, ?_⟩, ⟨fun x w hw => hw, fun x => ?_⟩, ?_⟩
          · exact (addVars_of_subset (by simpa [Term.vars] using hkey)).symm
          · rw [assignmentOf_isSome_iff]
            simp only [Term.vars, List.mem_singleton, Set.mem_ofPred_eq]
            exact ⟨Or.inl, by rintro (hx | rfl); exacts [hx, hkey]⟩
          · exact heq ▸ hget
      | none =>
          rw [hget] at h
          cases h
          have hnew : name ∉ b.keys := OrderedMap.get_eq_none_iff.mp hget
          refine ⟨⟨⟨OrderedMap.nodup_keys_insert hb.nodup name v, ?_⟩, ?_⟩,
            ⟨fun x w hw => ?_, fun x => ?_⟩, OrderedMap.get_insert_self b name v⟩
          · intro e he
            rw [OrderedMap.insert_of_get_none v hget] at he
            rcases List.mem_append.mp he with he | he
            · exact hb.scalar e he
            · rw [List.mem_singleton.mp he]
              exact hv
          · rw [OrderedMap.keys_insert]
            rfl
          · have hne : name ≠ x := by
              rintro rfl
              rw [assignmentOf, hget] at hw
              cases hw
            exact (OrderedMap.get_insert_of_ne b v hne).trans hw
          · rw [assignmentOf_isSome_iff, assignmentOf_isSome_iff, OrderedMap.mem_keys_insert]
            simp only [Term.vars, List.mem_singleton, Set.mem_ofPred_eq]
            exact or_comm
  | value w =>
      simp only [unify] at h
      split_ifs at h with heqv
      cases h
      have heq := (Value.eqv_iff_of_scalar (ht w List.mem_cons_self)).mp heqv
      exact ⟨⟨hb, rfl⟩, (Extends.refl _).congr (by simp [Term.vars]), heq⟩
  | oneOf values =>
      simp only [unify] at h
      split_ifs at h with hany
      cases h
      obtain ⟨w, hw, heqv⟩ := List.any_eq_true.mp hany
      have heq := (Value.eqv_iff_of_scalar (ht w hw)).mp heqv
      exact ⟨⟨hb, rfl⟩, (Extends.refl _).congr (by simp [Term.vars]), heq ▸ hw⟩

/-- `unify` finds every assignment that makes the term the value. -/
lemma unify_complete {t : Term} {v : Value} {b : Map} {τ : Assignment String Value}
    (hb : ScalarBinding b) (hv : v.Scalar) (ht : ∀ w ∈ t.consts, w.Scalar)
    (hτ : Extends (assignmentOf b) τ {x | x ∈ t.vars}) (his : t.Is τ v) :
    ∃ b', unify t v b = some b' ∧ assignmentOf b' = τ := by
  have hsome : ∃ b', unify t v b = some b' := by
    cases t with
    | var name =>
        simp only [unify]
        cases hget : b.get name with
        | some existing =>
            have heq : τ name = some existing := hτ.keeps name existing hget
            have hv' : existing = v := Option.some.inj (heq.symm.trans his)
            have heqv := (Value.eqv_iff_of_scalar (hv' ▸ hv)).mpr hv'
            exact ⟨b, if_pos heqv⟩
        | none => exact ⟨b.insert name v, rfl⟩
    | value w =>
        have heqv := (Value.eqv_iff_of_scalar (ht w List.mem_cons_self)).mpr his
        exact ⟨b, if_pos heqv⟩
    | oneOf values =>
        have hany : values.any (·.eqv v) = true :=
          List.any_eq_true.mpr ⟨v, his, (Value.eqv_iff_of_scalar hv).mpr rfl⟩
        exact ⟨b, if_pos hany⟩
  obtain ⟨b', hb'⟩ := hsome
  refine ⟨b', hb', ?_⟩
  -- Two assignments that extend the binding over the term and make it the value agree.
  obtain ⟨-, hext, his'⟩ := unify_sound hb hv ht hb'
  funext x
  by_cases hx : x ∈ b.keys
  · rw [hext.agree (assignmentOf_isSome_iff.mpr hx), hτ.agree (assignmentOf_isSome_iff.mpr hx)]
  · by_cases hxt : x ∈ t.vars
    · cases t with
      | var name =>
          rw [List.mem_singleton.mp hxt]
          exact his'.trans (show τ name = some v from his).symm
      | value w => simp [Term.vars] at hxt
      | oneOf values => simp [Term.vars] at hxt
    · have h₁ : ¬ (assignmentOf b' x).isSome := by
        rw [hext.domain, assignmentOf_isSome_iff]
        exact fun h => h.elim hx hxt
      have h₂ : ¬ (τ x).isSome := by
        rw [hτ.domain, assignmentOf_isSome_iff]
        exact fun h => h.elim hx hxt
      rw [Option.not_isSome_iff_eq_none.mp h₁, Option.not_isSome_iff_eq_none.mp h₂]

/-! ### Triples -/

lemma Term.Is.extend {t : Term} {v : Value} {σ τ : Assignment String Value} {xs : Set String}
    (h : t.Is σ v) (hτ : Extends σ τ xs) : t.Is τ v := by
  cases t with
  | var name => exact hτ.keeps name v h
  | value w => exact h
  | oneOf values => exact h

lemma Term.Is.of_extend {t : Term} {v : Value} {σ τ : Assignment String Value} {xs : Set String}
    (h : t.Is τ v) (hτ : Extends σ τ xs) (hvars : ∀ x ∈ t.vars, (σ x).isSome) : t.Is σ v :=
  (Term.is_congr fun x hx => (hτ.agree (hvars x hx)).symm).mpr h

lemma Bound.trans {b b' b'' : Map} {xs ys : List String} (h₁ : Bound b b' xs)
    (h₂ : Bound b' b'' ys) : Bound b b'' (xs ++ ys) :=
  ⟨h₂.binding, by rw [h₂.keys, h₁.keys, addVars_append]⟩

private lemma extends_append_iff {σ τ : Assignment String Value} {xs ys : List String} :
    Extends σ τ {x | x ∈ xs ++ ys} ↔
      ∃ ρ, Extends σ ρ {x | x ∈ xs} ∧ Extends ρ τ {x | x ∈ ys} := by
  rw [← extends_union_iff]
  have hset : {x | x ∈ xs ++ ys} = {x | x ∈ xs} ∪ {x | x ∈ ys} := by
    ext x
    simp
  rw [hset]

section Triple

variable {s a o : Term} {b : Map} {d : Datom} (hb : ScalarBinding b) (hd : d.value.Scalar)
  (hconsts : ∀ v ∈ s.consts ++ a.consts ++ o.consts, v.Scalar)
include hb hd hconsts

private lemma unifyTriple_sound {b' : Map} (h : unifyTriple s a o b d = some b') :
    Bound b b' (s.vars ++ a.vars ++ o.vars) ∧
      Extends (assignmentOf b) (assignmentOf b') {x | x ∈ s.vars ++ a.vars ++ o.vars} ∧
      s.Is (assignmentOf b') (.string d.subject) ∧ a.Is (assignmentOf b') (.string d.attr) ∧
      o.Is (assignmentOf b') d.value := by
  obtain ⟨b₁, h₁, h⟩ := Option.bind_eq_some_iff.mp h
  obtain ⟨b₂, h₂, h₃⟩ := Option.bind_eq_some_iff.mp h
  obtain ⟨hbound₁, hext₁, his₁⟩ := unify_sound hb (Value.scalar_string _)
    (fun v hv => hconsts v (by simp [hv])) h₁
  obtain ⟨hbound₂, hext₂, his₂⟩ := unify_sound hbound₁.binding (Value.scalar_string _)
    (fun v hv => hconsts v (by simp [hv])) h₂
  obtain ⟨hbound₃, hext₃, his₃⟩ := unify_sound hbound₂.binding hd
    (fun v hv => hconsts v (by simp [hv])) h₃
  refine ⟨(hbound₁.trans hbound₂).trans hbound₃, ?_, (his₁.extend hext₂).extend hext₃,
    his₂.extend hext₃, his₃⟩
  exact extends_append_iff.mpr ⟨_, extends_append_iff.mpr ⟨_, hext₁, hext₂⟩, hext₃⟩

private lemma unifyTriple_complete {τ : Assignment String Value}
    (hτ : Extends (assignmentOf b) τ {x | x ∈ s.vars ++ a.vars ++ o.vars})
    (hs : s.Is τ (.string d.subject)) (ha : a.Is τ (.string d.attr)) (ho : o.Is τ d.value) :
    ∃ b', unifyTriple s a o b d = some b' ∧ assignmentOf b' = τ := by
  obtain ⟨ρ₂, hρ₂, hτ₃⟩ := extends_append_iff.mp hτ
  obtain ⟨ρ₁, hρ₁, hτ₂⟩ := extends_append_iff.mp hρ₂
  have hs₁ : s.Is ρ₁ (.string d.subject) :=
    (hs.of_extend (hτ₂.trans hτ₃) fun x hx => (hρ₁.domain x).mpr (Or.inr hx))
  have ha₂ : a.Is ρ₂ (.string d.attr) :=
    ha.of_extend hτ₃ fun x hx => (hτ₂.domain x).mpr (Or.inr hx)
  obtain ⟨b₁, h₁, rfl⟩ := unify_complete hb (Value.scalar_string _)
    (fun v hv => hconsts v (by simp [hv])) hρ₁ hs₁
  have hb₁ := (unify_sound hb (Value.scalar_string _) (fun v hv => hconsts v (by simp [hv])) h₁).1
  obtain ⟨b₂, h₂, rfl⟩ := unify_complete hb₁.binding (Value.scalar_string _)
    (fun v hv => hconsts v (by simp [hv])) hτ₂ ha₂
  have hb₂ := (unify_sound hb₁.binding (Value.scalar_string _)
    (fun v hv => hconsts v (by simp [hv])) h₂).1
  obtain ⟨b₃, h₃, rfl⟩ := unify_complete hb₂.binding hd
    (fun v hv => hconsts v (by simp [hv])) hτ₃ ho
  exact ⟨b₃, by simp only [unifyTriple, h₁, h₂, h₃, Option.bind_some], rfl⟩

end Triple

/-! ### Clauses -/

/-- Applied to a binding of scalars, the clause gives its solutions over the binding; it
fails where it is not ready. -/
structure ClauseAdequate (datoms : List Datom) (c : Clause)
    (apply : Map → Except QueryFailure (List Map)) : Prop where
  ready : ∀ b results, apply b = .ok results → clauseReady b c true
  sound : ∀ b results, ScalarBinding b → apply b = .ok results →
    ∀ b' ∈ results, Bound b b' c.binds
  answers : ∀ b results, ScalarBinding b → apply b = .ok results → ∀ τ,
    (∃ b' ∈ results, assignmentOf b' = τ) ↔
      Extends (assignmentOf b) τ {x | x ∈ c.binds} ∧ c.Holds datoms τ

variable [FloatText] {datoms : List Datom}

omit [FloatText] in
private lemma resolve_scalar {t : Term} {b : Map} (hb : ScalarBinding b)
    (ht : ∀ v ∈ t.consts, v.Scalar) {v : Value} (h : resolve t b = some v) : v.Scalar := by
  cases t with
  | var name => exact hb.scalar _ (OrderedMap.mem_of_get h)
  | value w => cases h; exact ht v List.mem_cons_self
  | oneOf values => cases h

private lemma triple_adequate (hdatoms : ∀ d ∈ datoms, d.value.Scalar) {s a o : Term}
    (hconsts : ∀ v ∈ s.consts ++ a.consts ++ o.consts, v.Scalar) :
    ClauseAdequate datoms (.triple s a o) (applyClause (listAccess datoms) (.triple s a o)) := by
  have hanswers : ∀ b, ScalarBinding b →
      tripleAnswers datoms b s a o = datoms.filterMap (unifyTriple s a o b) := fun b hb =>
    tripleAnswers_eq_filterMap (valueIndexed_of_scalar fun v hv =>
      resolve_scalar hb (fun w hw => hconsts w (by simp [hw])) hv)
  refine ⟨fun _ _ _ => rfl, ?_, ?_⟩
  · intro b results hb h b' hb'
    cases h
    rw [hanswers b hb] at hb'
    obtain ⟨d, hd, hu⟩ := List.mem_filterMap.mp hb'
    exact (unifyTriple_sound hb (hdatoms d hd) hconsts hu).1
  · intro b results hb h τ
    cases h
    rw [hanswers b hb]
    constructor
    · rintro ⟨b', hb', rfl⟩
      obtain ⟨d, hd, hu⟩ := List.mem_filterMap.mp hb'
      obtain ⟨-, hext, hs, ha, ho⟩ := unifyTriple_sound hb (hdatoms d hd) hconsts hu
      exact ⟨hext, d, hd, hs, ha, ho⟩
    · rintro ⟨hext, d, hd, hs, ha, ho⟩
      obtain ⟨b', hu, hτ⟩ := unifyTriple_complete hb (hdatoms d hd) hconsts hext hs ha ho
      exact ⟨b', List.mem_filterMap.mpr ⟨d, hd, hu⟩, hτ⟩

/-- A comparison keeps the bindings it holds of. -/
private lemma compare_adequate (op : CompareOp) (l r : Term) :
    ClauseAdequate datoms (.compare op l r)
      (applyClause (listAccess datoms) (.compare op l r)) := by
  have happly : ∀ b, applyClause (listAccess datoms) (.compare op l r) b =
      applyCompare b op l r := by
    intro b
    simp only [applyClause]
    cases applyCompare b op l r <;> rfl
  have hresults : ∀ b results, applyCompare b op l r = .ok results →
      ∃ v w, resolve l b = some v ∧ resolve r b = some w ∧
        results = if compareHolds op v w then [b] else [] := by
    intro b results h
    simp only [applyCompare] at h
    cases hl : resolve l b with
    | none => rw [hl] at h; cases h
    | some v =>
        cases hr : resolve r b with
        | none => rw [hl, hr] at h; cases h
        | some w =>
            rw [hl, hr] at h
            cases h
            exact ⟨v, w, rfl, rfl, rfl⟩
  refine ⟨?_, ?_, ?_⟩
  · intro b results h
    obtain ⟨v, w, hl, hr, -⟩ := hresults b results (happly b ▸ h)
    simp [clauseReady, hl, hr]
  · intro b results hb h b' hb'
    obtain ⟨v, w, -, -, rfl⟩ := hresults b results (happly b ▸ h)
    split_ifs at hb'
    · rw [List.mem_singleton.mp hb']
      exact ⟨hb, rfl⟩
    · simp at hb'
  · intro b results hb h τ
    obtain ⟨v, w, hl, hr, rfl⟩ := hresults b results (happly b ▸ h)
    rw [resolve_eq_denote] at hl hr
    constructor
    · rintro ⟨b', hb', rfl⟩
      split_ifs at hb' with hholds
      · rw [List.mem_singleton.mp hb']
        exact ⟨(Extends.refl _).congr (by simp [Clause.binds]), v, w, hl, hr, hholds⟩
      · simp at hb'
    · rintro ⟨hext, v', w', hl', hr', hholds⟩
      have hτ : τ = assignmentOf b := hext.eq_of_subset (by simp [Clause.binds])
      rw [hτ] at hl' hr'
      rw [hl] at hl'
      rw [hr] at hr'
      cases hl'
      cases hr'
      exact ⟨b, by rw [if_pos hholds]; exact List.mem_cons_self, hτ.symm⟩

/-! ### Reachability -/

section

omit [FloatText]

lemma mem_adjacent {edges : List (String × String)} {u v : String} :
    v ∈ adjacent edges u ↔ (u, v) ∈ edges := by
  rw [adjacent, OrderedMap.getD_pushAll, List.mem_map]
  constructor
  · rintro ⟨e, he, rfl⟩
    obtain ⟨hmem, hu⟩ := List.mem_filter.mp he
    have hu : e.1 = u := by simpa using hu
    rw [← hu]
    exact hmem
  · intro h
    exact ⟨(u, v), List.mem_filter.mpr ⟨h, by simp⟩, rfl⟩

lemma mem_edgesOf {attr u v : String} : (u, v) ∈ edgesOf datoms attr ↔ Edge datoms attr u v := by
  simp only [edgesOf, Edge, List.mem_filterMap, List.mem_filter, decide_eq_true_eq,
    Option.map_eq_some_iff, Value.asStr_eq_some, Prod.mk.injEq]
  constructor
  · rintro ⟨d, ⟨hd, hattr⟩, w, hw, rfl, rfl⟩
    exact ⟨d, hd, rfl, hattr, hw⟩
  · rintro ⟨d, hd, rfl, hattr, hv⟩
    exact ⟨d, ⟨hd, hattr⟩, v, hv, rfl, rfl⟩

/-- The search finds the nodes other than the start within the given number of edges. -/
lemma mem_reachedFrom {attr start v : String} {maxDepth : ℕ} :
    v ∈ reachedFrom (edgesOf datoms attr) start maxDepth ↔
      v ≠ start ∧ ∃ k ≤ maxDepth, Walk (Edge datoms attr) start v k := by
  have hclosed : ∀ u, ∀ w ∈ adjacent (edgesOf datoms attr) u,
      w ∈ start :: (edgesOf datoms attr).map Prod.snd := fun u w hw =>
    List.mem_cons_of_mem _ (List.mem_map_of_mem (f := Prod.snd) (mem_adjacent.mp hw))
  have hedge : ∀ u w, Succ (adjacent (edgesOf datoms attr)) u w ↔ Edge datoms attr u w :=
    fun u w => mem_adjacent.trans mem_edgesOf
  rw [reachedFrom, mem_reached_iff hclosed List.mem_cons_self (by simp)]
  refine and_congr_right fun _ => exists_congr fun k => and_congr_right fun _ => ?_
  exact ⟨Walk.mono fun u w => (hedge u w).mp, Walk.mono fun u w => (hedge u w).mpr⟩

end

private lemma reachable_adequate {f t : Term} (attr : String) (maxDepth : ℕ)
    (hconsts : ∀ v ∈ f.consts ++ t.consts, v.Scalar) :
    ClauseAdequate datoms (.reachable f attr t maxDepth)
      (applyClause (listAccess datoms) (.reachable f attr t maxDepth)) := by
  have ht : ∀ v ∈ t.consts, v.Scalar := fun v hv => hconsts v (List.mem_append_right _ hv)
  have hresults : ∀ b results,
      reachableAnswers datoms b f attr t maxDepth = .ok results →
      ∃ start, resolve f b = some (.string start) ∧
        results = (reachedFrom (edgesOf datoms attr) start maxDepth).filterMap
          fun next => unify t (.string next) b := by
    intro b results h
    simp only [reachableAnswers, reachableStart] at h
    split at h
    · cases h
    · next start hstart =>
        cases h
        exact ⟨start, hstart, rfl⟩
    · cases h
  -- The start is bound, so that only the variable of the target is new.
  have hvars : ∀ b start, resolve f b = some (.string start) → ∀ x ∈ f.vars, x ∈ b.keys := by
    intro b start hstart x hx
    cases f with
    | var name =>
        rw [List.mem_singleton.mp hx, ← assignmentOf_isSome_iff]
        exact Option.isSome_iff_exists.mpr ⟨_, hstart⟩
    | value w => simp [Term.vars] at hx
    | oneOf values => simp [Term.vars] at hx
  have hextends : ∀ b start τ, resolve f b = some (.string start) →
      (Extends (assignmentOf b) τ {x | x ∈ f.vars ++ t.vars} ↔
        Extends (assignmentOf b) τ {x | x ∈ t.vars}) := by
    intro b start τ hstart
    have hset : ∀ x, (assignmentOf b x).isSome ∨ x ∈ {x | x ∈ f.vars ++ t.vars} ↔
        (assignmentOf b x).isSome ∨ x ∈ {x | x ∈ t.vars} := by
      intro x
      simp only [Set.mem_ofPred_eq, List.mem_append, assignmentOf_isSome_iff]
      have := hvars b start hstart x
      tauto
    exact ⟨fun h => h.congr hset, fun h => h.congr fun x => (hset x).symm⟩
  refine ⟨?_, ?_, ?_⟩
  · intro b results h
    obtain ⟨start, hstart, -⟩ := hresults b results h
    simp [clauseReady, hstart]
  · intro b results hb h b' hb'
    obtain ⟨start, hstart, rfl⟩ := hresults b results h
    obtain ⟨next, -, hu⟩ := List.mem_filterMap.mp hb'
    obtain ⟨hbound, -, -⟩ := unify_sound hb (Value.scalar_string _) ht hu
    refine ⟨hbound.binding, ?_⟩
    rw [hbound.keys, Clause.binds, addVars_append, addVars_of_subset (hvars b start hstart)]
  · intro b results hb h τ
    obtain ⟨start, hstart, rfl⟩ := hresults b results h
    rw [show ({x | x ∈ (Clause.reachable f attr t maxDepth).binds} : Set String) =
      {x | x ∈ f.vars ++ t.vars} from rfl, hextends b start τ hstart]
    have hdenote : ∀ σ, Extends (assignmentOf b) σ {x | x ∈ t.vars} →
        f.denote σ = some (.string start) := by
      intro σ hσ
      rw [← hstart, resolve_eq_denote]
      exact Term.denote_congr fun x hx =>
        hσ.agree (assignmentOf_isSome_iff.mpr (hvars b start hstart x hx))
    constructor
    · rintro ⟨b', hb', rfl⟩
      obtain ⟨next, hnext, hu⟩ := List.mem_filterMap.mp hb'
      obtain ⟨-, hext, his⟩ := unify_sound hb (Value.scalar_string _) ht hu
      obtain ⟨hne, hwalk⟩ := mem_reachedFrom.mp hnext
      exact ⟨hext, start, next, hdenote _ hext, his, hne, hwalk⟩
    · rintro ⟨hext, start', target, hstart', his, hne, hwalk⟩
      rw [hdenote τ hext] at hstart'
      cases hstart'
      obtain ⟨b', hu, hτ⟩ := unify_complete hb (Value.scalar_string _) ht hext his
      exact ⟨b', List.mem_filterMap.mpr ⟨target, mem_reachedFrom.mpr ⟨hne, hwalk⟩, hu⟩, hτ⟩

/-! ### The loop of the planner -/

/-- The invariant of the planner: the bindings are the solutions of the clauses applied
so far, all of them with the same keys. -/
structure PlanState (datoms : List Datom) (base : Assignment String Value) (all : List Clause)
    (applied : List Clause) (remaining : List (Step (Except QueryFailure)))
    (keys : List String) (bindings : List Map) : Prop where
  perm : (applied ++ remaining.map Step.clause).Perm all
  adequate : ∀ step ∈ remaining, ClauseAdequate datoms step.clause step.apply
  settled : Settled base applied (remaining.map Step.clause)
  uniform : ∀ b ∈ bindings, ScalarBinding b ∧ b.keys = keys
  keys_iff : ∀ x, x ∈ keys ↔ (base x).isSome ∨ x ∈ bound applied
  answers : ∀ σ, (∃ b ∈ bindings, assignmentOf b = σ) ↔ Solution datoms base applied σ

/-- What the planner ends with: the solutions of all the clauses, with the same keys. -/
structure PlanResult (datoms : List Datom) (base : Assignment String Value)
    (all : List Clause) (bindings : List Map) : Prop where
  uniform : ∃ keys, ∀ b ∈ bindings, ScalarBinding b ∧ b.keys = keys
  answers : ∀ σ, (∃ b ∈ bindings, assignmentOf b = σ) ↔ Solution datoms base all σ

section Loop

omit [FloatText]

variable {base : Assignment String Value} {all applied : List Clause}
  {remaining : List (Step (Except QueryFailure))} {keys : List String} {bindings : List Map}

/-- Nothing is left to apply. -/
private lemma PlanState.finish (h : PlanState datoms base all applied [] keys bindings) :
    PlanResult datoms base all bindings := by
  refine ⟨⟨keys, h.uniform⟩, fun σ => ?_⟩
  rw [h.answers]
  have hperm : applied.Perm all := by simpa using h.perm
  exact solution_congr fun c => hperm.mem_iff

/-- No binding is left: the clauses applied so far have no solution, nor have all. -/
private lemma PlanState.stop (h : PlanState datoms base all applied remaining keys []) :
    PlanResult datoms base all [] := by
  refine ⟨⟨keys, by simp⟩, fun σ => ⟨by simp, fun hσ => ?_⟩⟩
  rw [solution_congr (fun c => h.perm.mem_iff.symm), solution_append_iff h.settled] at hσ
  obtain ⟨ρ, hρ, -⟩ := hσ
  exact absurd ((h.answers ρ).mpr hρ) (by simp)

/-- Whether a clause is ready only depends on the keys of the binding. -/
private lemma clauseReady_congr {b b' : Map} (hkeys : b.keys = b'.keys) (c : Clause)
    (nested : Bool) : clauseReady b c nested = clauseReady b' c nested := by
  have hresolve : ∀ t : Term, (resolve t b).isSome = (resolve t b').isSome := by
    intro t
    cases t with
    | var name =>
        rw [Bool.eq_iff_iff, resolve_eq_denote, resolve_eq_denote]
        simp only [Term.denote, assignmentOf_isSome_iff, hkeys]
    | value w => rfl
    | oneOf values => rfl
  cases c <;> simp only [clauseReady, hresolve]

/-- The variables of a plain clause that a binding is ready for have values afterwards. -/
private lemma vars_of_ready {c : Clause} {b : Map} {nested : Bool}
    (hready : clauseReady b c nested) (hc : c.isNested = false) :
    ∀ x ∈ c.vars, x ∈ b.keys ∨ x ∈ c.binds := by
  cases c with
  | compare op l r =>
      have hdefined : ∀ t : Term, (resolve t b).isSome → ∀ x ∈ t.vars, x ∈ b.keys := by
        intro t ht x hx
        cases t with
        | var name =>
            rw [List.mem_singleton.mp hx, ← assignmentOf_isSome_iff]
            exact ht
        | value w => simp [Term.vars] at hx
        | oneOf values => simp [Term.vars] at hx
      simp only [clauseReady, Bool.and_eq_true] at hready
      intro x hx
      rcases List.mem_append.mp hx with hx | hx
      · exact Or.inl (hdefined l hready.1 x hx)
      · exact Or.inl (hdefined r hready.2 x hx)
  | triple s a o => exact fun x hx => Or.inr hx
  | reachable f attr t d => exact fun x hx => Or.inr hx
  | exists_ cs => cases hc
  | notExists cs => cases hc

/-- One round: a clause that all bindings are ready for is applied to all of them. -/
private lemma PlanState.step {before after : List (Step (Except QueryFailure))}
    {step : Step (Except QueryFailure)} {binding : Map} {rest : List Map}
    {results : List (List Map)}
    (h : PlanState datoms base all applied (before ++ step :: after) keys (binding :: rest))
    (hready : ∀ b ∈ binding :: rest, clauseReady b step.clause
      (((before ++ step :: after).map Step.clause).all Clause.isNested))
    (hresults : (binding :: rest).mapM step.apply = .ok results) :
    PlanState datoms base all (applied ++ [step.clause]) (before ++ after)
      (addVars keys step.clause.binds) results.flatten := by
  have hstep := h.adequate step (by simp)
  have hmem : ∀ b', b' ∈ results.flatten ↔
      ∃ b ∈ binding :: rest, ∃ rs, step.apply b = .ok rs ∧ b' ∈ rs := by
    intro b'
    rw [List.mem_flatten]
    constructor
    · rintro ⟨rs, hrs, hb'⟩
      obtain ⟨b, hb, happly⟩ := Lists.exists_source_of_mapM hresults hrs
      exact ⟨b, hb, rs, happly, hb'⟩
    · rintro ⟨b, hb, rs, happly, hb'⟩
      obtain ⟨rs', hrs', happly'⟩ := Lists.exists_ok_of_mapM hresults hb
      rw [happly] at happly'
      cases happly'
      exact ⟨rs, hrs', hb'⟩
  have hbound_snoc : ∀ x, x ∈ bound (applied ++ [step.clause]) ↔
      x ∈ bound applied ∨ x ∈ step.clause.binds := fun x => by
    rw [bound_append, bound_singleton]
    rfl
  have hsubset : ∀ c, c ∈ (before ++ after).map Step.clause →
      c ∈ (before ++ step :: after).map Step.clause := by
    intro c hc
    simp only [List.map_append, List.map_cons, List.mem_append, List.mem_cons] at hc ⊢
    tauto
  refine ⟨?_, ?_, ⟨?_, ?_⟩, ?_, ?_, ?_⟩
  · refine List.Perm.trans ?_ h.perm
    simp only [List.map_append, List.map_cons, List.append_assoc, List.singleton_append]
    exact (List.perm_middle.append_left applied).symm
  · intro other hother
    refine h.adequate other ?_
    simp only [List.mem_append, List.mem_cons] at hother ⊢
    tauto
  · intro c hc hn x hx
    rcases List.mem_append.mp hc with hc | hc
    · exact (h.settled.vars c hc hn x hx).imp id fun hb => (hbound_snoc x).mpr (Or.inl hb)
    · rw [List.mem_singleton.mp hc] at hn hx
      rcases vars_of_ready (hready binding List.mem_cons_self) hn x hx with hkey | hb
      · rw [(h.uniform binding List.mem_cons_self).2, h.keys_iff] at hkey
        exact hkey.imp id fun hb => (hbound_snoc x).mpr (Or.inl hb)
      · exact Or.inr ((hbound_snoc x).mpr (Or.inr hb))
  · rintro ⟨c, hc, hn⟩ d hd
    rcases List.mem_append.mp hc with hc | hc
    · exact h.settled.nested ⟨c, hc, hn⟩ d (hsubset d hd)
    · -- A nested predicate is ready only among nested predicates.
      rw [List.mem_singleton.mp hc] at hn
      have hr := hready binding List.mem_cons_self
      have hallNested : ((before ++ step :: after).map Step.clause).all Clause.isNested = true := by
        cases hclause : step.clause <;> rw [hclause] at hn hr
        case exists_ => exact hr
        case notExists => exact hr
        all_goals cases hn
      exact List.all_eq_true.mp hallNested d (hsubset d hd)
  · intro b' hb'
    obtain ⟨b, hb, rs, hrs, hb'⟩ := (hmem b').mp hb'
    obtain ⟨hscalar, hkeys⟩ := h.uniform b hb
    have hbound := hstep.sound b rs hscalar hrs b' hb'
    exact ⟨hbound.binding, by rw [hbound.keys, hkeys]⟩
  · intro x
    rw [mem_addVars, h.keys_iff, hbound_snoc, or_assoc]
  · intro τ
    have hsettled : Settled base applied [step.clause] := by
      refine ⟨h.settled.vars, fun hn c hc => h.settled.nested hn c ?_⟩
      rw [List.mem_singleton.mp hc]
      simp
    rw [solution_append_iff hsettled]
    constructor
    · rintro ⟨b', hb', hτ⟩
      obtain ⟨b, hb, rs, hrs, hb'⟩ := (hmem b').mp hb'
      obtain ⟨hext, hholds⟩ :=
        (hstep.answers b rs (h.uniform b hb).1 hrs τ).mp ⟨b', hb', hτ⟩
      refine ⟨assignmentOf b, (h.answers _).mp ⟨b, hb, rfl⟩, ?_, ?_⟩
      · rw [bound_singleton]; exact hext
      · intro c hc
        rw [List.mem_singleton.mp hc]
        exact hholds
    · rintro ⟨σ, hσ, hext, hholds⟩
      obtain ⟨b, hb, rfl⟩ := (h.answers σ).mpr hσ
      obtain ⟨rs, -, hrs⟩ := Lists.exists_ok_of_mapM hresults hb
      rw [bound_singleton] at hext
      obtain ⟨b', hb', hτ⟩ := (hstep.answers b rs (h.uniform b hb).1 hrs τ).mpr
        ⟨hext, hholds step.clause List.mem_cons_self⟩
      exact ⟨b', (hmem b').mpr ⟨b, hb, rs, hrs, hb'⟩, hτ⟩

/-- **The loop is adequate**: from the invariant it ends in the solutions of all the
clauses. -/
theorem planLoop_adequate {lists : Access (Except QueryFailure)}
    (hlimit : ∀ n, lists.checkWork n = .ok ()) (fuel : ℕ) {out : List Map}
    (hfuel : remaining.length ≤ fuel)
    (h : PlanState datoms base all applied remaining keys bindings)
    (hout : planLoop lists fuel remaining bindings = .ok out) :
    PlanResult datoms base all out := by
  induction fuel generalizing applied remaining keys bindings with
  | zero =>
      cases hout
      have hnil : remaining = [] := List.length_eq_zero_iff.mp (by omega)
      subst hnil
      exact h.finish
  | succ fuel ih =>
      by_cases hremaining : remaining = []
      · subst hremaining
        cases bindings <;> cases hout <;> exact h.finish
      cases bindings with
      | nil =>
          obtain ⟨first, others, rfl⟩ := List.exists_cons_of_ne_nil hremaining
          cases hout
          exact h.stop
      | cons binding rest =>
          rcases planLoop_round hremaining hout with
            ⟨before, step, after, rfl, hready, next, hext, hloop⟩ |
            ⟨step, hstep, hplain, happly, b, hb, hnot⟩
          · obtain ⟨results, hresults, rfl⟩ := extendAll_ok hlimit hext
            rw [List.nil_append] at hloop
            refine ih ?_ (h.step hready hresults) hloop
            simp only [List.length_append, List.length_cons] at hfuel ⊢
            omega
          · -- A clause that one binding is not ready for is ready for none, and fails.
            have hkeys : b.keys = binding.keys := by
              rw [(h.uniform b hb).2, (h.uniform binding List.mem_cons_self).2]
            have hr := (h.adequate step hstep).ready binding out happly
            have hplainReady : clauseReady binding step.clause true =
                clauseReady binding step.clause false := by
              cases hc : step.clause <;> rw [hc] at hplain
              case exists_ => cases hplain
              case notExists => cases hplain
              all_goals rfl
            rw [hplainReady, ← clauseReady_congr hkeys, hnot] at hr
            cases hr

end Loop

/-! ### Nested predicates -/

section Nested

variable {access : Access (Except QueryFailure)}

section

omit [FloatText]

private lemma map_clause_clauseSteps (clauses : List Clause) :
    (clauseSteps access clauses).map Step.clause = clauses := by
  induction clauses with
  | nil => rfl
  | cons c cs ih => rw [clauseSteps, List.map_cons, ih]

private lemma mem_clauseSteps {clauses : List Clause} {step : Step (Except QueryFailure)}
    (h : step ∈ clauseSteps access clauses) :
    ∃ c ∈ clauses, step = ⟨c, applyClause access c⟩ := by
  induction clauses with
  | nil => simp [clauseSteps] at h
  | cons c cs ih =>
      rcases List.mem_cons.mp h with rfl | h
      · exact ⟨c, List.mem_cons_self, rfl⟩
      · obtain ⟨d, hd, hstep⟩ := ih h
        exact ⟨d, List.mem_cons_of_mem _ hd, hstep⟩

/-- From one binding and adequate clauses the planner gives the solutions over it. -/
lemma applyPlanned_adequate (hlimit : ∀ n, access.checkWork n = .ok ()) {clauses : List Clause}
    (hclauses : ∀ c ∈ clauses, ClauseAdequate datoms c (applyClause access c))
    {b : Map} (hb : ScalarBinding b) {out : List Map}
    (hout : applyPlanned access b (clauseSteps access clauses) = .ok out) :
    PlanResult datoms (assignmentOf b) clauses out := by
  have hstart : PlanState datoms (assignmentOf b) clauses [] (clauseSteps access clauses)
      b.keys [b] := by
    refine ⟨?_, ?_, ⟨by simp, by simp⟩, ?_, ?_, ?_⟩
    · rw [List.nil_append, map_clause_clauseSteps]
    · intro step hstep
      obtain ⟨c, hc, rfl⟩ := mem_clauseSteps hstep
      exact hclauses c hc
    · intro b' hb'
      rw [List.mem_singleton.mp hb']
      exact ⟨hb, rfl⟩
    · intro x
      rw [assignmentOf_isSome_iff]
      simp [bound]
    · intro σ
      constructor
      · rintro ⟨b', hb', rfl⟩
        rw [List.mem_singleton.mp hb']
        exact ⟨(Extends.refl _).congr (by simp [bound]), by simp⟩
      · rintro ⟨hext, -⟩
        exact ⟨b, List.mem_cons_self, (hext.eq_of_subset (by simp [bound])).symm⟩
  exact planLoop_adequate hlimit _ le_rfl hstart hout

/-- A predicate over nested clauses keeps the bindings it holds of. -/
private lemma nested_adequate {c : Clause} {clauses : List Clause} (keepEmpty : Bool)
    (hlimit : ∀ n, access.checkWork n = .ok ())
    (hclauses : ∀ c ∈ clauses, ClauseAdequate datoms c (applyClause access c))
    (hnested : c.isNested) (hbinds : c.binds = [])
    (happly : ∀ b, applyClause access c b =
      (applyPlanned access b (clauseSteps access clauses)).map fun found =>
        if found.isEmpty = keepEmpty then [b] else [])
    (hholds : ∀ σ, c.Holds datoms σ ↔
      if keepEmpty then ¬ ∃ τ, Solution datoms σ clauses τ else ∃ τ, Solution datoms σ clauses τ) :
    ClauseAdequate datoms c (applyClause access c) := by
  have hresults : ∀ b results, ScalarBinding b → applyClause access c b = .ok results →
      (c.Holds datoms (assignmentOf b) → results = [b]) ∧
        (¬ c.Holds datoms (assignmentOf b) → results = []) := by
    intro b results hb h
    rw [happly] at h
    cases hplan : applyPlanned access b (clauseSteps access clauses) with
    | error e => rw [hplan] at h; cases h
    | ok found =>
        rw [hplan] at h
        cases h
        have hadequate := applyPlanned_adequate hlimit hclauses hb hplan
        have hempty : found.isEmpty = true ↔
            ¬ ∃ τ, Solution datoms (assignmentOf b) clauses τ := by
          rw [List.isEmpty_iff]
          constructor
          · rintro rfl ⟨τ, hτ⟩
            exact absurd ((hadequate.answers τ).mpr hτ) (by simp)
          · intro hno
            rw [List.eq_nil_iff_forall_not_mem]
            intro b' hb'
            exact hno ⟨_, (hadequate.answers _).mp ⟨b', hb', rfl⟩⟩
        rw [hholds]
        cases keepEmpty <;> cases hfound : found.isEmpty <;> simp_all
  refine ⟨fun b results _ => ?_, fun b results hb h b' hb' => ?_, fun b results hb h τ => ?_⟩
  · cases c <;> first | rfl | cases hnested
  · obtain ⟨hyes, hno⟩ := hresults b results hb h
    have hmem : b' ∈ [b] := by
      by_cases hc : c.Holds datoms (assignmentOf b)
      · rwa [hyes hc] at hb'
      · rw [hno hc] at hb'
        simp at hb'
    rw [List.mem_singleton.mp hmem, hbinds]
    exact ⟨hb, rfl⟩
  · obtain ⟨hyes, hno⟩ := hresults b results hb h
    rw [hbinds]
    constructor
    · rintro ⟨b', hb', rfl⟩
      by_cases hc : c.Holds datoms (assignmentOf b)
      · rw [hyes hc, List.mem_singleton] at hb'
        subst hb'
        exact ⟨(Extends.refl _).congr (by simp), hc⟩
      · rw [hno hc] at hb'
        simp at hb'
    · rintro ⟨hext, hc⟩
      have hτ : τ = assignmentOf b := hext.eq_of_subset (by simp)
      rw [hτ] at hc
      exact ⟨b, by rw [hyes hc]; exact List.mem_cons_self, hτ.symm⟩

end

end Nested

/-- **Every clause is adequate** over datoms and constants that are scalars, by induction
on the nesting. -/
theorem applyClause_adequate (hdatoms : ∀ d ∈ datoms, d.value.Scalar) (c : Clause)
    (hc : ∀ v ∈ c.consts, v.Scalar) :
    ClauseAdequate datoms c (applyClause (listAccess datoms) c) := by
  have hlimit : ∀ n, (listAccess datoms).checkWork n = .ok () := fun _ => rfl
  induction c using Clause.ind with
  | triple s a o => exact triple_adequate hdatoms hc
  | compare op l r => exact compare_adequate op l r
  | reachable f attr t d => exact reachable_adequate attr d hc
  | exists_ clauses ih =>
      have hclauses := fun c hmem => ih c hmem fun v hv =>
        hc v (mem_clausesConsts.mpr ⟨c, hmem, hv⟩)
      refine nested_adequate false hlimit hclauses rfl rfl (fun b => ?_)
        fun σ => by simpa using holds_exists_iff
      simp only [applyClause]
      cases applyPlanned (listAccess datoms) b (clauseSteps (listAccess datoms) clauses) with
      | error e => rfl
      | ok found =>
          by_cases hfound : found = []
          · rw [hfound]; rfl
          · have hempty : found.isEmpty = false := by simpa using hfound
            simp only [bind, Except.bind, pure, Except.pure, Except.map, hempty]
            rfl
  | notExists clauses ih =>
      have hclauses := fun c hmem => ih c hmem fun v hv =>
        hc v (mem_clausesConsts.mpr ⟨c, hmem, hv⟩)
      refine nested_adequate true hlimit hclauses rfl rfl (fun b => ?_)
        fun σ => by simpa using holds_notExists_iff
      simp only [applyClause]
      cases applyPlanned (listAccess datoms) b (clauseSteps (listAccess datoms) clauses) with
      | error e => rfl
      | ok found =>
          by_cases hfound : found = []
          · rw [hfound]; rfl
          · have hempty : found.isEmpty = false := by simpa using hfound
            simp only [bind, Except.bind, pure, Except.pure, Except.map, hempty]

/-! ### Execution -/

omit [FloatText] in
/-- The inputs are a binding of scalars. -/
private lemma initialBinding_scalar {inputs : Map} (h : ∀ e ∈ inputs, e.2.Scalar) :
    ScalarBinding (initialBinding inputs) := by
  have hfold : ∀ (es b : Map), ScalarBinding b → (∀ e ∈ es, e.2.Scalar) →
      ScalarBinding (es.foldl (fun binding e =>
        binding.insert ((variableName e.1).toOption.getD ("?" ++ e.1)) e.2) b) := by
    intro es
    induction es with
    | nil => exact fun b hb _ => hb
    | cons e es ih =>
        intro b hb hes
        refine ih _ ⟨OrderedMap.nodup_keys_insert hb.nodup _ _, ?_⟩
          fun e' he' => hes e' (List.mem_cons_of_mem _ he')
        intro e' he'
        rcases OrderedMap.mem_insert he' with rfl | he'
        · exact hes e List.mem_cons_self
        · exact hb.scalar e' he'
  exact hfold inputs [] ⟨List.nodup_nil, by simp⟩ h

/-- The answers of a plan are told apart by their text. -/
private lemma text_injective_of_result {base : Assignment String Value} {all : List Clause}
    {out : List Map} (h : PlanResult datoms base all out) :
    ∀ b ∈ out, ∀ b' ∈ out, Value.text (.object b) = Value.text (.object b') → b = b' := by
  obtain ⟨keys, huniform⟩ := h.uniform
  exact fun b hb b' hb' htext =>
    Value.scalar_object_text_injective (huniform b hb).1.scalar (huniform b' hb').1.scalar htext

omit [FloatText] in
/-- Different answers of a plan are different assignments. -/
private lemma length_le_encard {base : Assignment String Value} {all : List Clause}
    {out answers : List Map} (h : PlanResult datoms base all out)
    (hsub : answers.Sublist out) (hnodup : answers.Nodup) :
    (answers.length : ℕ∞) ≤ {σ | Solution datoms base all σ}.encard := by
  classical
  obtain ⟨keys, huniform⟩ := h.uniform
  have hinj : (answers.map assignmentOf).Nodup := by
    refine hnodup.map_on fun b hb b' hb' heq => ?_
    have hb := huniform b (hsub.subset hb)
    have hb' := huniform b' (hsub.subset hb')
    exact binding_ext hb.1.nodup (hb.2.trans hb'.2.symm) heq
  have hfinset : ((answers.map assignmentOf).toFinset : Set (Assignment String Value)) ⊆
      {σ | Solution datoms base all σ} := by
    intro σ hσ
    obtain ⟨b, hb, rfl⟩ := List.mem_map.mp (List.mem_toFinset.mp (Finset.mem_coe.mp hσ))
    exact (h.answers _).mp ⟨b, hsub.subset hb, rfl⟩
  calc (answers.length : ℕ∞)
      = ((answers.map assignmentOf).toFinset.card : ℕ∞) := by
        rw [List.toFinset_card_of_nodup hinj, List.length_map]
    _ = ((answers.map assignmentOf).toFinset : Set (Assignment String Value)).encard :=
        (Set.encard_coe_eq_coe_finsetCard _).symm
    _ ≤ {σ | Solution datoms base all σ}.encard := Set.encard_le_encard hfinset

/-- **What a query returns is what it means**: without a cursor, with a page for all the
answers and over scalars, the bindings of a successful `execute` are the solutions of the
clauses over the inputs. -/
theorem execute_bindings_iff {spec : QuerySpec} {result : QueryResult}
    (hcursor : spec.cursorValues = [])
    (hdatoms : ∀ d ∈ datoms, d.value.Scalar) (hinputs : ∀ e ∈ spec.inputs, e.2.Scalar)
    (hconsts : ∀ v ∈ clausesConsts spec.clauses, v.Scalar)
    (hlimit : {σ | Solution datoms (assignmentOf (initialBinding spec.inputs)) spec.clauses
      σ}.encard ≤ spec.limit)
    (h : execute spec datoms = .ok result) :
    {σ | ∃ b ∈ result.bindings, assignmentOf b = σ} =
      {σ | Solution datoms (assignmentOf (initialBinding spec.inputs)) spec.clauses σ} := by
  have hunbounded := executeUnbounded_of_execute h
  simp only [executeUnbounded] at hunbounded
  cases hplan : applyPlanned (listAccess datoms) (initialBinding spec.inputs)
      (clauseSteps (listAccess datoms) spec.clauses) with
  | error e => rw [hplan] at hunbounded; cases hunbounded
  | ok out =>
      rw [hplan] at hunbounded
      have hplanned := applyPlanned_adequate (fun _ => rfl)
        (fun c hc => applyClause_adequate hdatoms c fun v hv =>
          hconsts v (mem_clausesConsts.mpr ⟨c, hc, hv⟩))
        (initialBinding_scalar hinputs) hplan
      have hdistinct : ∀ b, b ∈ distinctAnswers out ↔ b ∈ out := fun b =>
        Lists.mem_retainFirst _ (text_injective_of_result hplanned)
      have hlen : (distinctAnswers out).length ≤ spec.limit := by
        have hle := (length_le_encard hplanned (distinctAnswers_sublist out)
          (nodup_distinctAnswers out)).trans hlimit
        exact_mod_cast hle
      obtain ⟨after, hpage⟩ := executeWith_ok hunbounded
      have hafter : after = distinctAnswers out := by
        have hfilter := hpage.cursor
        rw [filterCursor, hcursor] at hfilter
        cases hfilter
        rfl
      have hbindings : ∀ b, b ∈ result.bindings ↔ b ∈ out := by
        intro b
        rw [hpage.page, hafter, List.take_of_length_le, Lists.mem_sortBy, hdistinct]
        rw [(Lists.sortBy_perm _ _).length_eq]
        exact hlen
      ext σ
      simp only [Set.mem_ofPred_eq, hbindings]
      exact hplanned.answers σ

/-- The messages to `bob` that nobody replied to. -/
def unrepliedSpec : QuerySpec where
  inputs := [("who", .string "bob")]
  finds := [.var "?m"]
  pulls := []
  clauses := [.notExists [.triple (.var "?r") (.value (.string "replies_to")) (.var "?m")],
    .triple (.var "?m") (.value (.string "recipient")) (.var "?who")]
  orderBy := []
  limit := 50
  cursorValues := []
  limits := testLimits

def unrepliedDatoms : List Datom :=
  [⟨"m1", "m1", "recipient", .string "bob", 1, "ev1"⟩,
    ⟨"m2", "m2", "recipient", .string "bob", 2, "ev2"⟩,
    ⟨"m2", "m2", "replies_to", .string "m1", 2, "ev2"⟩]

omit [FloatText] in
/-- The clauses are written in the order the planner does not take: the answers are the
solutions. -/
theorem execute_unreplied :
    {σ | ∃ b ∈ [[("?who", Value.string "bob"), ("?m", Value.string "m2")]], assignmentOf b = σ} =
      {σ | Solution unrepliedDatoms (assignmentOf (initialBinding unrepliedSpec.inputs))
        unrepliedSpec.clauses σ} := by
  have hrun : @execute FloatText.fields unrepliedSpec unrepliedDatoms =
      .ok ⟨[[("?who", .string "bob"), ("?m", .string "m2")]], [], [], false⟩ := by
    decide +kernel
  refine @execute_bindings_iff FloatText.fields _ unrepliedSpec _ rfl (by decide) (by decide)
    (by decide) ?_ hrun
  -- A solution is given by the message of its triple.
  have hsubset : {σ | Solution unrepliedDatoms
      (assignmentOf (initialBinding unrepliedSpec.inputs)) unrepliedSpec.clauses σ} ⊆
      {assignmentOf [("?who", .string "bob"), ("?m", .string "m1")],
        assignmentOf [("?who", .string "bob"), ("?m", .string "m2")]} := by
    rintro σ ⟨hext, hholds⟩
    obtain ⟨d, hd, hm, -, -⟩ :
        ∃ d ∈ unrepliedDatoms, σ "?m" = some (.string d.subject) ∧ _ ∧ _ :=
      hholds _ (List.mem_cons_of_mem _ List.mem_cons_self)
    have hwho : σ "?who" = some (.string "bob") := hext.keeps "?who" _ rfl
    have heq : ∀ s, σ "?m" = some (.string s) →
        σ = assignmentOf [("?who", .string "bob"), ("?m", .string s)] := by
      intro s hs
      funext x
      by_cases hx : x = "?who" ∨ x = "?m"
      · rcases hx with rfl | rfl
        · exact hwho
        · exact hs
      · have hnone : ¬ (σ x).isSome := by
          rw [hext.domain]
          rintro (hbase | ⟨c, hc, hbind⟩)
          · have hkey := assignmentOf_isSome_iff.mp hbase
            exact hx (Or.inl (List.mem_singleton.mp hkey))
          · simp only [unrepliedSpec, List.mem_cons, List.not_mem_nil, or_false] at hc
            rcases hc with rfl | rfl
            · simp [Clause.binds] at hbind
            · simp [Clause.binds, Term.vars] at hbind
              tauto
        rw [Option.not_isSome_iff_eq_none.mp hnone]
        refine (OrderedMap.get_eq_none_iff.mpr ?_).symm
        simpa using hx
    simp only [unrepliedDatoms, List.mem_cons, List.not_mem_nil, or_false] at hd
    rcases hd with rfl | rfl | rfl
    · exact Or.inl (heq _ hm)
    · exact Or.inr (heq _ hm)
    · exact Or.inr (heq _ hm)
  calc _ ≤ _ := Set.encard_le_encard hsubset
    _ ≤ 1 + 1 := (Set.encard_insert_le _ _).trans (by rw [Set.encard_singleton])
    _ ≤ (50 : ℕ) := by norm_num

end Query

end McpSurfaces
