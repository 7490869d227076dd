import McpSurfaces.Foundation.Metered
import McpSurfaces.Query.Syntax

/-!
Terms against bindings, the index of datoms and the evaluation of a triple clause:
`resolve`, `unify`, `compare`, `DatomIndex` and `apply_triple`.

* `tripleCandidates_eq_filter`: each of the five index paths is a filter of the datom
  list, in its order.
-/

namespace McpSurfaces

namespace Query

open Metered

/-! ### Terms and bindings -/

/-- The value of a term under a binding; `one_of` has none. -/
def resolve (term : Term) (binding : Map) : Option Value :=
  match term with
  | .var name => binding.get name
  | .value v => some v
  | .oneOf _ => none

/-- The string a term resolves to, if it is one. -/
def resolveStr (term : Term) (binding : Map) : Option String :=
  (resolve term binding).bind Value.asStr

/-- The extension of a binding under which the term is the value. -/
def unify (term : Term) (value : Value) (binding : Map) : Option Map :=
  match term with
  | .var name =>
      match binding.get name with
      | some existing => if existing.eqv value then some binding else none
      | none => some (binding.insert name value)
  | .value expected => if expected.eqv value then some binding else none
  | .oneOf values => if values.any (·.eqv value) then some binding else none

/-- `unify` on subject, attribute and object of a datom. -/
def unifyTriple (subject attr object : Term) (binding : Map) (datom : Datom) : Option Map :=
  (unify subject (.string datom.subject) binding).bind fun afterSubject =>
    (unify attr (.string datom.attr) afterSubject).bind fun afterAttribute =>
      unify object datom.value afterAttribute

def compareValues (left right : Value) : Option Ordering :=
  match left, right with
  | .number l, .number r => some (compare l.asF64 r.asF64)
  | .string l, .string r => some (compare l r)
  | .bool l, .bool r => some (compare l r)
  | _, _ => none

/-- `compare`: values that cannot be ordered are only ever equal. -/
def compareHolds (op : CompareOp) (left right : Value) : Bool :=
  match compareValues left right with
  | none => op = .eq && left.eqv right
  | some ordering =>
      match op with
      | .eq => ordering = .eq
      | .ne => ordering ≠ .eq
      | .gt => ordering = .gt
      | .ge => ordering ≠ .lt
      | .lt => ordering = .lt
      | .le => ordering ≠ .gt

/-! ### Budgets -/

/-- Addition on `usize`, saturating. -/
def saturatingAdd (a b : ℕ) : ℕ := min (a + b) (2 ^ 64 - 1)

structure ExecutionBudget where
  limits : QueryLimits
  workLimit : ℕ
  datomsScanned : ℕ
  traversalEdges : ℕ

def ExecutionBudget.new (limits : QueryLimits) (workLimit : ℕ) : ExecutionBudget :=
  ⟨limits, workLimit, 0, 0⟩

/-- A computation on an execution budget. -/
abbrev Exec := Computation ExecutionBudget QueryFailure

def queryWorkFailure (limit : ℕ) : QueryFailure :=
  ⟨"query_work_limit", "query intermediate result exceeded the work limit",
    .object [("work_limit", .ofNat limit)]⟩

def queryDatomScanFailure (limit : ℕ) : QueryFailure :=
  ⟨"query_datom_scan_limit", "query datom-scan budget was exceeded",
    .object [("max_datoms_scanned", .ofNat limit)]⟩

def queryTraversalFailure (limit : ℕ) : QueryFailure :=
  ⟨"query_traversal_limit", "query traversal-edge budget was exceeded",
    .object [("max_traversal_edges", .ofNat limit)]⟩

/-- The refusals of a budget, as opposed to those of a query. -/
def BudgetRefusal (e : QueryFailure) : Prop :=
  e.code ∈ ["query_work_limit", "query_datom_scan_limit", "query_traversal_limit"]

instance : DecidablePred BudgetRefusal := fun e => by unfold BudgetRefusal; infer_instance

def scanDatom : Exec Unit := do
  let budget ← get
  let budget := { budget with datomsScanned := saturatingAdd budget.datomsScanned 1 }
  set budget
  if budget.limits.maxDatomsScanned < budget.datomsScanned then
    throw (queryDatomScanFailure budget.limits.maxDatomsScanned)

def traverseEdge : Exec Unit := do
  let budget ← get
  let budget := { budget with traversalEdges := saturatingAdd budget.traversalEdges 1 }
  set budget
  if budget.limits.maxTraversalEdges < budget.traversalEdges then
    throw (queryTraversalFailure budget.limits.maxTraversalEdges)

/-- The refusal of more than `work_limit` intermediate results. -/
def checkWork (count : ℕ) : Exec Unit := do
  let budget ← get
  if budget.workLimit < count then
    throw (queryWorkFailure budget.workLimit)

/-! ### The index -/

variable [FloatText]

def stableValueKey (value : Value) : String := value.text

structure DatomIndex where
  all : List Datom
  bySubject : OrderedMap String (List Datom)
  bySubjectAttribute : OrderedMap (String × String) (List Datom)
  byAttribute : OrderedMap String (List Datom)
  byAttributeValue : OrderedMap (String × String) (List Datom)

def DatomIndex.new (datoms : List Datom) : DatomIndex where
  all := datoms
  bySubject := OrderedMap.pushAll (fun d => d.subject) datoms
  bySubjectAttribute := OrderedMap.pushAll (fun d => (d.subject, d.attr)) datoms
  byAttribute := OrderedMap.pushAll (fun d => d.attr) datoms
  byAttributeValue := OrderedMap.pushAll (fun d => (d.attr, stableValueKey d.value)) datoms

namespace DatomIndex

def tripleCandidates (index : DatomIndex) (subject attr object : Term) (binding : Map) :
    List Datom :=
  match resolveStr subject binding with
  | some subject =>
      match resolveStr attr binding with
      | some attr => (index.bySubjectAttribute.get (subject, attr)).getD []
      | none => (index.bySubject.get subject).getD []
  | none =>
      match resolveStr attr binding with
      | some attr =>
          match resolve object binding with
          | some object => (index.byAttributeValue.get (attr, stableValueKey object)).getD []
          | none => (index.byAttribute.get attr).getD []
      | none => index.all

def attributeCandidates (index : DatomIndex) (attr : String) : List Datom :=
  (index.byAttribute.get attr).getD []

end DatomIndex

/-- The loop of `apply_triple` over the candidates. -/
def scanTriple (subject attr object : Term) (binding : Map) :
    List Datom → List Map → Exec (List Map)
  | [], results => pure results
  | datom :: rest, results => do
      scanDatom
      match unifyTriple subject attr object binding datom with
      | none => scanTriple subject attr object binding rest results
      | some result =>
          checkWork (results ++ [result]).length
          scanTriple subject attr object binding rest (results ++ [result])

def applyTriple (binding : Map) (subject attr object : Term) (index : DatomIndex) :
    Exec (List Map) :=
  scanTriple subject attr object binding (index.tripleCandidates subject attr object binding) []

/-! ### What the candidates are -/

/-- The datoms the index hands out for a triple, as a filter of the whole list. -/
def isCandidate (subject attr object : Term) (binding : Map) (datom : Datom) : Bool :=
  match resolveStr subject binding with
  | some subject =>
      match resolveStr attr binding with
      | some attr => (datom.subject, datom.attr) = (subject, attr)
      | none => datom.subject = subject
  | none =>
      match resolveStr attr binding with
      | some attr =>
          match resolve object binding with
          | some object => (datom.attr, stableValueKey datom.value) = (attr, stableValueKey object)
          | none => datom.attr = attr
      | none => true

/-- Each index path is a filter of the datoms, in their order. -/
lemma tripleCandidates_eq_filter (datoms : List Datom) (subject attr object : Term)
    (binding : Map) :
    (DatomIndex.new datoms).tripleCandidates subject attr object binding =
      datoms.filter (isCandidate subject attr object binding) := by
  unfold DatomIndex.tripleCandidates isCandidate DatomIndex.new
  cases resolveStr subject binding with
  | some subject =>
      cases resolveStr attr binding with
      | some attr => exact OrderedMap.getD_pushAll _ datoms (subject, attr)
      | none => exact OrderedMap.getD_pushAll _ datoms subject
  | none =>
      cases resolveStr attr binding with
      | some attr =>
          cases resolve object binding with
          | some object =>
              exact OrderedMap.getD_pushAll _ datoms (attr, stableValueKey object)
          | none => exact OrderedMap.getD_pushAll _ datoms attr
      | none => exact (List.filter_eq_self.mpr fun _ _ => rfl).symm

lemma attributeCandidates_eq_filter (datoms : List Datom) (attr : String) :
    (DatomIndex.new datoms).attributeCandidates attr = datoms.filter fun d => d.attr = attr :=
  OrderedMap.getD_pushAll _ datoms attr

/-! ### The loop over the candidates -/

section

omit [FloatText]

lemma scanDatom_error {s : ExecutionBudget} {e : QueryFailure} (h : scanDatom.run s = .error e) :
    BudgetRefusal e := by
  unfold scanDatom at h
  simp only [StateT.run_bind, StateT.run_get, StateT.run_set, pure_bind] at h
  split_ifs at h
  · cases h; simp [BudgetRefusal, queryDatomScanFailure]
  · cases h

lemma traverseEdge_error {s : ExecutionBudget} {e : QueryFailure}
    (h : traverseEdge.run s = .error e) : BudgetRefusal e := by
  unfold traverseEdge at h
  simp only [StateT.run_bind, StateT.run_get, StateT.run_set, pure_bind] at h
  split_ifs at h
  · cases h; simp [BudgetRefusal, queryTraversalFailure]
  · cases h

lemma checkWork_error {n : ℕ} {s : ExecutionBudget} {e : QueryFailure}
    (h : (checkWork n).run s = .error e) : BudgetRefusal e := by
  unfold checkWork at h
  simp only [StateT.run_bind, StateT.run_get, pure_bind] at h
  split_ifs at h
  · cases h; simp [BudgetRefusal, queryWorkFailure]
  · cases h

/-- A scan within the budget. -/
lemma scanDatom_run {s : ExecutionBudget} (h : s.datomsScanned + 1 ≤ s.limits.maxDatomsScanned) :
    scanDatom.run s =
      .ok ((), { s with datomsScanned := saturatingAdd s.datomsScanned 1 }) := by
  have hle : ¬ s.limits.maxDatomsScanned < saturatingAdd s.datomsScanned 1 := by
    unfold saturatingAdd; omega
  unfold scanDatom
  simp only [StateT.run_bind, StateT.run_get, StateT.run_set, pure_bind, if_neg hle]
  rfl

lemma checkWork_run {n : ℕ} {s : ExecutionBudget} (h : n ≤ s.workLimit) :
    (checkWork n).run s = .ok ((), s) := by
  unfold checkWork
  simp only [StateT.run_bind, StateT.run_get, pure_bind, if_neg (not_lt.mpr h)]
  rfl

lemma scanTriple_simulates (subject attr object : Term) (binding : Map) (datoms : List Datom)
    (results : List Map) :
    Simulates BudgetRefusal (scanTriple subject attr object binding datoms results)
      (.ok (results ++ datoms.filterMap (unifyTriple subject attr object binding))) := by
  induction datoms generalizing results with
  | nil => simpa [scanTriple] using Simulates.pure results
  | cons datom rest ih =>
      unfold scanTriple
      refine Simulates.meter (fun _ _ => scanDatom_error) ?_
      cases hu : unifyTriple subject attr object binding datom with
      | none => simpa [hu] using ih results
      | some result =>
          refine Simulates.meter (fun _ _ => checkWork_error) ?_
          simpa [hu] using ih (results ++ [result])

/-- On a large enough budget the loop runs to its end. -/
lemma scanTriple_run (subject attr object : Term) (binding : Map) (datoms : List Datom)
    (results : List Map) (s : ExecutionBudget)
    (hscan : s.datomsScanned + datoms.length ≤ s.limits.maxDatomsScanned)
    (hwork : results.length + datoms.length ≤ s.workLimit) :
    ∃ s', (scanTriple subject attr object binding datoms results).run s =
      .ok (results ++ datoms.filterMap (unifyTriple subject attr object binding), s') := by
  induction datoms generalizing results s with
  | nil => exact ⟨s, by simp [scanTriple]; rfl⟩
  | cons datom rest ih =>
      rw [List.length_cons] at hscan hwork
      have hs := scanDatom_run (s := s) (by omega)
      set s₁ : ExecutionBudget := { s with datomsScanned := saturatingAdd s.datomsScanned 1 }
      have hscan₁ : s₁.datomsScanned + rest.length ≤ s₁.limits.maxDatomsScanned := by
        have : saturatingAdd s.datomsScanned 1 ≤ s.datomsScanned + 1 := min_le_left _ _
        show saturatingAdd s.datomsScanned 1 + rest.length ≤ s.limits.maxDatomsScanned
        omega
      unfold scanTriple
      rw [run_bind_of_ok hs]
      cases hu : unifyTriple subject attr object binding datom with
      | none =>
          obtain ⟨s', h'⟩ := ih results s₁ hscan₁ (show _ ≤ s.workLimit by omega)
          exact ⟨s', by simpa [hu] using h'⟩
      | some result =>
          have hlen : (results ++ [result]).length = results.length + 1 := by simp
          obtain ⟨s', h'⟩ := ih (results ++ [result]) s₁ hscan₁
            (show _ ≤ s.workLimit by omega)
          have hwork₁ : (results ++ [result]).length ≤ s₁.workLimit :=
            show _ ≤ s.workLimit by omega
          refine ⟨s', ?_⟩
          simp only
          rw [run_bind_of_ok (checkWork_run hwork₁)]
          simpa [hu] using h'

end

/-- What a triple clause gives is what `unify` accepts among the candidates. -/
def tripleAnswers (datoms : List Datom) (binding : Map) (subject attr object : Term) : List Map :=
  (datoms.filter (isCandidate subject attr object binding)).filterMap
    (unifyTriple subject attr object binding)

lemma applyTriple_simulates (datoms : List Datom) (binding : Map) (subject attr object : Term) :
    Simulates BudgetRefusal (applyTriple binding subject attr object (DatomIndex.new datoms))
      (.ok (tripleAnswers datoms binding subject attr object)) := by
  unfold applyTriple tripleAnswers
  rw [tripleCandidates_eq_filter]
  exact scanTriple_simulates subject attr object binding _ []

lemma applyTriple_run (datoms : List Datom) (binding : Map) (subject attr object : Term)
    (s : ExecutionBudget)
    (hscan : s.datomsScanned + datoms.length ≤ s.limits.maxDatomsScanned)
    (hwork : datoms.length ≤ s.workLimit) :
    ∃ s', (applyTriple binding subject attr object (DatomIndex.new datoms)).run s =
      .ok (tripleAnswers datoms binding subject attr object, s') := by
  have hlen := datoms.length_filter_le (isCandidate subject attr object binding)
  unfold applyTriple tripleAnswers
  rw [tripleCandidates_eq_filter]
  exact scanTriple_run subject attr object binding _ [] s (by omega) (by simpa using by omega)

end Query

end McpSurfaces
