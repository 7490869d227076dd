import McpSurfaces.Json.Text

/-!
The data of the query module of `event-ledger-native`: datoms, limits, terms,
clauses, parsed queries and failures.

* `Clause.ind` is the induction principle of the nested clauses: from the clauses
  inside a predicate to the predicate.
* `Clause.binds` are the variables a clause can bind: those of triples and of the
  two ends of a reachability, and none of comparisons and nested predicates.
-/

namespace McpSurfaces

namespace Query

/-- One fact of a projection. -/
structure Datom where
  originId : String
  subject : String
  attr : String
  value : Value
  eventSequence : ℕ
  eventId : String
deriving DecidableEq

structure QueryLimits where
  maxClauses : ℕ
  maxResults : ℕ
  maxReachDepth : ℕ
  maxOneOfValues : ℕ
  maxPredicateDepth : ℕ
  maxDatomsScanned : ℕ
  maxTraversalEdges : ℕ
deriving DecidableEq

/-- The limits the tests of the module run under. -/
def testLimits : QueryLimits where
  maxClauses := 16
  maxResults := 100
  maxReachDepth := 8
  maxOneOfValues := 16
  maxPredicateDepth := 8
  maxDatomsScanned := 10000
  maxTraversalEdges := 10000

structure PullSpec where
  variableName : String
  fields : List String
  targetKind : Option String
deriving DecidableEq

inductive Term where
  | var (name : String)
  | value (v : Value)
  | oneOf (values : List Value)
deriving DecidableEq

/-- `Term::as_variable_name`. -/
def Term.asVariableName : Term → Option String
  | .var name => some name
  | _ => none

structure OrderTerm where
  term : Term
  descending : Bool
deriving DecidableEq

/-- The comparison operators `=`, `!=`, `>`, `>=`, `<` and `<=`. -/
inductive CompareOp where
  | eq
  | ne
  | gt
  | ge
  | lt
  | le
deriving DecidableEq

inductive Clause where
  | triple (subject attr object : Term)
  | compare (op : CompareOp) (left right : Term)
  | reachable (fromTerm : Term) (attr : String) (toTerm : Term) (maxDepth : ℕ)
  | exists_ (clauses : List Clause)
  | notExists (clauses : List Clause)

mutual

def Clause.decEq : (c d : Clause) → Decidable (c = d)
  | .triple s a o, .triple s' a' o' =>
      decidable_of_iff (s = s' ∧ a = a' ∧ o = o') (by simp)
  | .compare op l r, .compare op' l' r' =>
      decidable_of_iff (op = op' ∧ l = l' ∧ r = r') (by simp)
  | .reachable f a t d, .reachable f' a' t' d' =>
      decidable_of_iff (f = f' ∧ a = a' ∧ t = t' ∧ d = d') (by simp)
  | .exists_ cs, .exists_ ds => @decidable_of_iff _ (cs = ds) (by simp) (Clause.decEqList cs ds)
  | .notExists cs, .notExists ds =>
      @decidable_of_iff _ (cs = ds) (by simp) (Clause.decEqList cs ds)
  | .triple _ _ _, .compare _ _ _ | .triple _ _ _, .reachable _ _ _ _
  | .triple _ _ _, .exists_ _ | .triple _ _ _, .notExists _
  | .compare _ _ _, .triple _ _ _ | .compare _ _ _, .reachable _ _ _ _
  | .compare _ _ _, .exists_ _ | .compare _ _ _, .notExists _
  | .reachable _ _ _ _, .triple _ _ _ | .reachable _ _ _ _, .compare _ _ _
  | .reachable _ _ _ _, .exists_ _ | .reachable _ _ _ _, .notExists _
  | .exists_ _, .triple _ _ _ | .exists_ _, .compare _ _ _
  | .exists_ _, .reachable _ _ _ _ | .exists_ _, .notExists _
  | .notExists _, .triple _ _ _ | .notExists _, .compare _ _ _
  | .notExists _, .reachable _ _ _ _ | .notExists _, .exists_ _ => isFalse (by simp)

def Clause.decEqList : (cs ds : List Clause) → Decidable (cs = ds)
  | [], [] => isTrue rfl
  | [], _ :: _ => isFalse (by simp)
  | _ :: _, [] => isFalse (by simp)
  | c :: cs, d :: ds =>
      @decidable_of_iff _ (c = d ∧ cs = ds) (by simp)
        (@instDecidableAnd _ _ (Clause.decEq c d) (Clause.decEqList cs ds))

end

instance : DecidableEq Clause := Clause.decEq

structure QuerySpec where
  inputs : Map
  finds : List Term
  pulls : List PullSpec
  clauses : List Clause
  orderBy : List OrderTerm
  limit : ℕ
  cursorValues : Map
  limits : QueryLimits
deriving DecidableEq

structure QueryResult where
  bindings : List Map
  pulls : List PullSpec
  orderBy : List OrderTerm
  hasMore : Bool
deriving DecidableEq

/-- A refusal: a stable code, a message and details. -/
structure QueryFailure where
  code : String
  message : String
  details : Value
deriving DecidableEq

namespace Clause

/-- The induction principle of the nested clauses. -/
@[elab_as_elim]
theorem ind {P : Clause → Prop} (triple : ∀ s a o, P (.triple s a o))
    (compare : ∀ op l r, P (.compare op l r))
    (reachable : ∀ f a t d, P (.reachable f a t d))
    (exists_ : ∀ cs : List Clause, (∀ c ∈ cs, P c) → P (.exists_ cs))
    (notExists : ∀ cs : List Clause, (∀ c ∈ cs, P c) → P (.notExists cs))
    (c : Clause) : P c :=
  @Clause.rec P (fun cs => ∀ c ∈ cs, P c)
    triple compare reachable exists_ notExists
    (fun _ hc => absurd hc (by simp))
    (fun _ _ head tail _ hc => by
      rcases List.mem_cons.mp hc with rfl | hc
      · exact head
      · exact tail _ hc)
    c

/-- Whether the clause is `exists` or `not_exists`. -/
def isNested : Clause → Bool
  | .exists_ _ | .notExists _ => true
  | _ => false

/-- The terms of a triple clause. -/
def asTriple : Clause → Option (Term × Term × Term)
  | .triple s a o => some (s, a, o)
  | _ => none

end Clause

/-- The variable of a term. -/
def Term.vars : Term → List String
  | .var name => [name]
  | _ => []

/-- The variables a clause binds in the answers: those of triples and of the ends of
a reachability. -/
def Clause.binds : Clause → List String
  | .triple s a o => s.vars ++ a.vars ++ o.vars
  | .reachable fromTerm _ toTerm _ => fromTerm.vars ++ toTerm.vars
  | _ => []

/-- The constants of a term. -/
def Term.consts : Term → List Value
  | .var _ => []
  | .value v => [v]
  | .oneOf values => values

mutual

/-- The constants of a clause, those inside nested predicates included. -/
def Clause.consts : Clause → List Value
  | .triple s a o => s.consts ++ a.consts ++ o.consts
  | .compare _ l r => l.consts ++ r.consts
  | .reachable fromTerm _ toTerm _ => fromTerm.consts ++ toTerm.consts
  | .exists_ clauses => clausesConsts clauses
  | .notExists clauses => clausesConsts clauses

def clausesConsts : List Clause → List Value
  | [] => []
  | c :: rest => c.consts ++ clausesConsts rest

end

lemma mem_clausesConsts {clauses : List Clause} {v : Value} :
    v ∈ clausesConsts clauses ↔ ∃ c ∈ clauses, v ∈ c.consts := by
  induction clauses with
  | nil => simp [clausesConsts]
  | cons c rest ih => simp [clausesConsts, ih]

end Query

end McpSurfaces
