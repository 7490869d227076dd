import McpSurfaces.Foundation.Lists
import McpSurfaces.Foundation.Str
import McpSurfaces.Query.Syntax

/-!
The parser of the query module: `variable_name`, `parse_term`, `parse_clause_at` and
`parse`, with their refusals.

* Nested predicates are parsed by recursion on the levels that are left, which is
  how the source bounds the depth (`parseClauseAt`); the number of clauses read so
  far is the state of the parser.
-/

namespace McpSurfaces

namespace Query

/-- A JSON object given by its fields. -/
def obj (fields : List (String × Value)) : Value := .object fields

/-! ### Names and terms -/

def variableName (value : String) : Except QueryFailure String :=
  let trimmed := Str.trim value
  if trimmed = "" then
    .error ⟨"query_invalid_variable", "query variable must not be empty", .null⟩
  else if Str.startsWith trimmed "?" then .ok trimmed
  else .ok ("?" ++ trimmed)

def rejectUnknownKeys (object : Map) (allowed : List String) (context : String) :
    Except QueryFailure Unit :=
  match object.keys.find? (fun key => !allowed.contains key) with
  | some key =>
      .error ⟨"query_invalid_field", context ++ " field is not supported: " ++ key,
        obj [("context", .string context), ("field", .string key)]⟩
  | none => .ok ()

/-- The forms of a term that is an object. -/
def parseTermObject (value : Value) (object : Map) (limits : QueryLimits) :
    Except QueryFailure Term := do
  rejectUnknownKeys object ["var", "input", "value", "one_of"] "term"
  let formCount := (["var", "input", "value", "one_of"].filter object.containsKey).length
  if 1 < formCount then
    throw ⟨"query_ambiguous_term",
      "term must contain exactly one variable, input, value, or one_of form", value⟩
  if let some name := (object.get "var").bind Value.asStr then
    return .var (← variableName name)
  if let some name := (object.get "input").bind Value.asStr then
    return .var (← variableName name)
  if let some v := object.get "value" then
    return .value v
  if let some values := (object.get "one_of").bind Value.asArray then
    if values.isEmpty then
      throw ⟨"query_invalid_term", "one_of must contain at least one value", value⟩
    if limits.maxOneOfValues < values.length then
      throw ⟨"query_term_limit",
        "one_of must contain at most " ++ toString limits.maxOneOfValues ++ " values",
        obj [("count", .ofNat values.length), ("max", .ofNat limits.maxOneOfValues)]⟩
    return .oneOf values
  throw ⟨"query_invalid_term", "term must be a literal, variable, input, or one_of object", value⟩

def parseTerm (value : Value) (limits : QueryLimits) : Except QueryFailure Term :=
  match value with
  | .string text =>
      if Str.startsWith text "?" then (variableName text).map .var
      else .ok (.value (.string text))
  | .object object => parseTermObject value object limits
  | _ => .ok (.value value)

/-! ### Clauses -/

/-- A value that is required, or the refusal with the given message. -/
def required {α : Type} (value : Option α) (code message : String) (details : Value) :
    Except QueryFailure α :=
  match value with
  | some v => .ok v
  | none => .error ⟨code, message, details⟩

/-- A required part of a clause. -/
def clausePart {α : Type} (value : Option α) (message : String) (details : Value) :
    Except QueryFailure α :=
  required value "query_invalid_clause" message details

def parseTriple (value : Value) (limits : QueryLimits) : Except QueryFailure Clause := do
  let triple ← clausePart value.asObject "triple clause must be an object" value
  rejectUnknownKeys triple ["subject", "attribute", "object", "value"] "triple"
  if triple.containsKey "object" = triple.containsKey "value" then
    throw ⟨"query_invalid_clause", "triple must contain exactly one object or value field",
      .object triple⟩
  let subject ← clausePart (triple.get "subject") "triple subject is required" (.object triple)
  let attr ← clausePart (triple.get "attribute") "triple attribute is required" (.object triple)
  let objectValue ← clausePart ((triple.get "object").or (triple.get "value"))
    "triple object is required" (.object triple)
  return .triple (← parseTerm subject limits) (← parseTerm attr limits)
    (← parseTerm objectValue limits)

def parseOp (op : String) : Except QueryFailure CompareOp :=
  match op with
  | "=" => .ok .eq
  | "!=" => .ok .ne
  | ">" => .ok .gt
  | ">=" => .ok .ge
  | "<" => .ok .lt
  | "<=" => .ok .le
  | _ => .error ⟨"query_unsupported_operator", "unsupported comparison operator: " ++ op,
      obj [("op", .string op)]⟩

def parseCompare (value : Value) (limits : QueryLimits) : Except QueryFailure Clause := do
  let compare ← clausePart value.asObject "compare clause must be an object" value
  rejectUnknownKeys compare ["op", "left", "right"] "compare"
  let op ← clausePart ((compare.get "op").bind Value.asStr) "compare op is required"
    (.object compare)
  let op ← parseOp op
  let left ← clausePart (compare.get "left") "compare left is required" (.object compare)
  let right ← clausePart (compare.get "right") "compare right is required" (.object compare)
  return .compare op (← parseTerm left limits) (← parseTerm right limits)

def parseReachable (value : Value) (limits : QueryLimits) : Except QueryFailure Clause := do
  let reachable ← clausePart value.asObject "reachable clause must be an object" value
  rejectUnknownKeys reachable ["from", "to", "attribute", "max_depth"] "reachable"
  let fromTerm ← clausePart (reachable.get "from") "reachable from is required"
    (.object reachable)
  let toTerm ← clausePart (reachable.get "to") "reachable to is required" (.object reachable)
  let attr ← clausePart ((reachable.get "attribute").bind Value.asStr)
    "reachable attribute is required" (.object reachable)
  let requestedDepth ← match reachable.get "max_depth" with
    | none => pure 1
    | some depth =>
        clausePart depth.asU64 "reachable max_depth must be a positive integer" depth
  let maxDepth := min requestedDepth limits.maxReachDepth
  if maxDepth = 0 then
    throw ⟨"query_invalid_clause", "reachable max_depth must be positive", .object reachable⟩
  return .reachable (← parseTerm fromTerm limits) attr (← parseTerm toTerm limits) maxDepth

/-- The clauses inside `exists` or `not_exists`: those under `where`, or the one
clause the object itself is. -/
def nestedValues (key : String) (nested : Value) (limits : QueryLimits) :
    Except QueryFailure (List Value) := do
  let nestedObject ← clausePart nested.asObject (key ++ " clause must be an object") nested
  rejectUnknownKeys nestedObject
    ["where", "triple", "compare", "reachable", "exists", "not_exists"] key
  let values ← match nestedObject.get "where" with
    | some whereValues => do
        if nestedObject.length ≠ 1 then
          throw ⟨"query_ambiguous_clause",
            key ++ " must contain either where or one nested clause, not both", nested⟩
        clausePart whereValues.asArray (key ++ ".where must be an array") whereValues
    | none => do
        if nestedObject.length ≠ 1 then
          throw ⟨"query_ambiguous_clause", key ++ " must contain exactly one nested clause", nested⟩
        pure [Value.object nestedObject]
  if values.isEmpty ∨ limits.maxClauses < values.length then
    throw ⟨"query_clause_limit",
      key ++ ".where must contain between 1 and " ++ toString limits.maxClauses ++ " clauses",
      obj [("count", .ofNat values.length), ("max", .ofNat limits.maxClauses)]⟩
  return values

/-- The state of the clause parser: the number of clauses read so far. -/
abbrev ClauseParser := StateT ℕ (Except QueryFailure)

/-- One more clause, within the limit on their total. -/
def countClause (limits : QueryLimits) : ClauseParser Unit := do
  let count := (← get) + 1
  set count
  if limits.maxClauses < count then
    throw ⟨"query_clause_limit",
      "query clauses must contain at most " ++ toString limits.maxClauses ++ " clauses in total",
      obj [("count", .ofNat count), ("max", .ofNat limits.maxClauses)]⟩

/-- The object of a clause, with exactly one of the five forms. -/
def clauseObject (value : Value) : Except QueryFailure Map := do
  let object ← clausePart value.asObject "each where clause must be an object" value
  rejectUnknownKeys object ["triple", "compare", "reachable", "exists", "not_exists"] "clause"
  if object.length ≠ 1 then
    throw ⟨"query_ambiguous_clause", "each where clause must contain exactly one clause form",
      value⟩
  return object

/-- The refusal of a predicate nested below the last level. -/
def predicateDepthFailure (depth : ℕ) (limits : QueryLimits) : QueryFailure :=
  ⟨"query_predicate_depth_limit",
    "nested predicates may not exceed " ++ toString limits.maxPredicateDepth ++ " levels",
    obj [("depth", .ofNat depth), ("max", .ofNat limits.maxPredicateDepth)]⟩

/-- `parse_clause_at`, by recursion on the levels of nesting that are left:
`predicate_depth` is `max_predicate_depth - levels`. -/
def parseClauseAt (limits : QueryLimits) (levels : ℕ) (value : Value) : ClauseParser Clause := do
  countClause limits
  let object ← clauseObject value
  if let some triple := object.get "triple" then
    return ← parseTriple triple limits
  if let some compare := object.get "compare" then
    return ← parseCompare compare limits
  if let some reachable := object.get "reachable" then
    return ← parseReachable reachable limits
  match levels with
  | 0 =>
      if object.containsKey "exists" ∨ object.containsKey "not_exists" then
        throw (predicateDepthFailure (limits.maxPredicateDepth + 1) limits)
  | levels + 1 =>
      if let some nested := object.get "exists" then
        let values ← nestedValues "exists" nested limits
        return .exists_ (← values.mapM (parseClauseAt limits levels))
      if let some nested := object.get "not_exists" then
        let values ← nestedValues "not_exists" nested limits
        return .notExists (← values.mapM (parseClauseAt limits levels))
  throw ⟨"query_unsupported_clause",
    "supported clauses are triple, compare, reachable, exists, and not_exists", value⟩
termination_by structural levels

/-! ### Queries -/

/-- The inputs of a query: an object, and distinct variables once normalized. -/
def parseInputs (object : Map) (limits : QueryLimits) : Except QueryFailure Map := do
  let inputs : Map ← match object.get "inputs" with
    | none => pure []
    | some (.object inputs) => pure inputs
    | some value => throw ⟨"query_invalid_inputs", "inputs must be an object", value⟩
  if limits.maxClauses < inputs.length then
    throw ⟨"query_input_limit",
      "inputs must contain at most " ++ toString limits.maxClauses ++ " variables",
      obj [("count", .ofNat inputs.length), ("max", .ofNat limits.maxClauses)]⟩
  let _ ← inputs.keys.foldlM (fun (normalizedInputs : List String) key => do
    let normalized ← match variableName key with
      | .ok name => pure name
      | .error failure =>
          throw ⟨"query_invalid_input", "input names must be non-empty query variables",
            obj [("input", .string key), ("cause", .string failure.code)]⟩
    if normalized ∈ normalizedInputs then
      throw ⟨"query_duplicate_input", "input names must not normalize to the same query variable",
        obj [("input", .string key), ("variable", .string normalized)]⟩
    return normalized :: normalizedInputs) []
  return inputs

/-- A pull expression of `find`. -/
def parsePull (value : Value) (limits : QueryLimits) : Except QueryFailure PullSpec := do
  let pull ← required value.asObject "query_invalid_pull" "pull must be an object" value
  rejectUnknownKeys pull ["var", "variable", "target_kind", "fields"] "pull"
  let name ← required (((pull.get "var").or (pull.get "variable")).bind Value.asStr)
    "query_invalid_pull" "pull variable is required" (.object pull)
  let targetKind ← match pull.get "target_kind" with
    | none => pure none
    | some (.string kind) =>
        if kind ∈ ["entity", "relation", "record"] then pure (some kind)
        else throw ⟨"query_invalid_pull", "pull target_kind must be entity, relation, or record",
          .string kind⟩
    | some value =>
        throw ⟨"query_invalid_pull", "pull target_kind must be entity, relation, or record", value⟩
  let fieldValues ← required ((pull.get "fields").bind Value.asArray)
    "query_invalid_pull" "pull fields must be an array" (.object pull)
  let fields ← fieldValues.mapM fun field =>
    required field.asStr "query_invalid_pull" "pull field must be a string" field
  if fields.isEmpty ∨ limits.maxClauses < fields.length then
    throw ⟨"query_pull_field_limit",
      "pull fields must contain between 1 and " ++ toString limits.maxClauses ++ " fields",
      obj [("count", .ofNat fields.length), ("max", .ofNat limits.maxClauses)]⟩
  return ⟨← variableName name, fields, targetKind⟩

/-- The terms and pulls of `find`, in order. -/
def parseFind (object : Map) (limits : QueryLimits) :
    Except QueryFailure (List Term × List PullSpec) := do
  let findValues ← required ((object.get "find").bind Value.asArray)
    "query_invalid_find" "find must be an array" .null
  if findValues.isEmpty then
    throw ⟨"query_invalid_find", "find must not be empty", .null⟩
  if limits.maxClauses < findValues.length then
    throw ⟨"query_find_limit",
      "find must contain at most " ++ toString limits.maxClauses ++ " terms",
      obj [("count", .ofNat findValues.length), ("max", .ofNat limits.maxClauses)]⟩
  let (finds, pulls) ← findValues.foldlM (fun (acc : List Term × List PullSpec) item => do
    match item.get "pull" with
    | some pull =>
        if let some itemObject := item.asObject then
          rejectUnknownKeys itemObject ["pull"] "find"
        let spec ← parsePull pull limits
        return (acc.1 ++ [.var spec.variableName], acc.2 ++ [spec])
    | none => return (acc.1 ++ [← parseTerm item limits], acc.2)) ([], [])
  if finds.any fun term => term.asVariableName.isNone then
    throw ⟨"query_find_requires_variable", "find terms must be variables or pull expressions",
      .null⟩
  return (finds, pulls)

def parseWhere (object : Map) (limits : QueryLimits) : Except QueryFailure (List Clause) := do
  let values ← required ((object.get "where").bind Value.asArray)
    "query_invalid_where" "where must be an array" .null
  let (clauses, _) ← (values.mapM (parseClauseAt limits limits.maxPredicateDepth)).run 0
  if clauses.isEmpty ∨ limits.maxClauses < clauses.length then
    throw ⟨"query_clause_limit",
      "where must contain between 1 and " ++ toString limits.maxClauses ++ " clauses",
      obj [("count", .ofNat clauses.length), ("max", .ofNat limits.maxClauses)]⟩
  return clauses

def parseOrderTerm (value : Value) (limits : QueryLimits) : Except QueryFailure OrderTerm := do
  let item ← required value.asObject "query_invalid_order" "order_by item must be an object" value
  rejectUnknownKeys item ["term", "direction"] "order_by"
  let term ← required (item.get "term") "query_invalid_order" "order_by term is required"
    (.object item)
  let direction ← match item.get "direction" with
    | none => pure "asc"
    | some (.string direction) => pure direction
    | some value =>
        throw ⟨"query_invalid_order", "order direction must be asc or desc", value⟩
  if direction ∉ ["asc", "desc"] then
    throw ⟨"query_invalid_order", "order direction must be asc or desc", .object item⟩
  return ⟨← parseTerm term limits, direction == "desc"⟩

def parseOrder (object : Map) (limits : QueryLimits) : Except QueryFailure (List OrderTerm) := do
  let orderValues ← match object.get "order_by" with
    | none => pure []
    | some (.array orderValues) => pure orderValues
    | some value => throw ⟨"query_invalid_order", "order_by must be an array", value⟩
  if limits.maxClauses < orderValues.length then
    throw ⟨"query_order_limit",
      "order_by must contain at most " ++ toString limits.maxClauses ++ " terms",
      obj [("count", .ofNat orderValues.length), ("max", .ofNat limits.maxClauses)]⟩
  orderValues.mapM (parseOrderTerm · limits)

def parseLimit (object : Map) (defaultLimit : ℕ) (limits : QueryLimits) :
    Except QueryFailure ℕ := do
  let limit ← match object.get "limit" with
    | none => pure defaultLimit
    | some value =>
        required value.asU64 "query_invalid_limit" "limit must be a positive integer" value
  if limit = 0 ∨ limits.maxResults < limit then
    throw ⟨"query_limit_exceeded",
      "query limit must be between 1 and " ++ toString limits.maxResults,
      obj [("limit", .ofNat limit), ("max", .ofNat limits.maxResults)]⟩
  return limit

/-- The refusal of a cursor that is no object. -/
def cursorInvalid (value : Value) : QueryFailure :=
  ⟨"query_cursor_invalid", "cursor must be an object or null after transport decoding", value⟩

def parseCursor (object : Map) : Except QueryFailure Map := do
  let cursorValues ← match object.get "cursor" with
    | none | some .null => pure []
    | some (.object cursor) =>
        match OrderedMap.get cursor "values" with
        | none => pure []
        | some (.object values) => pure values
        | some value =>
            throw ⟨"query_cursor_invalid", "cursor values must be an object", value⟩
    | some value => throw (cursorInvalid value)
  if let some cursor := object.get "cursor" then
    if let some cursorObject := cursor.asObject then
      rejectUnknownKeys cursorObject ["schema", "head", "query", "values"] "cursor"
    else if cursor ≠ .null then
      throw (cursorInvalid cursor)
  return cursorValues

/-- What the cursor and the order have to do with each other. -/
def checkOrder (orderBy : List OrderTerm) (cursorValues : Map) : Except QueryFailure Unit := do
  if orderBy.any fun order => order.term.asVariableName.isNone then
    throw ⟨"query_order_requires_variable",
      "order_by terms must be variables so cursors can advance", .null⟩
  if ¬ cursorValues.isEmpty ∧ orderBy.isEmpty then
    throw ⟨"query_cursor_requires_order",
      "cursor pagination requires at least one order_by term", .null⟩
  if ¬ cursorValues.isEmpty then
    orderBy.forM fun order => do
      if let some name := order.term.asVariableName then
        if ¬ cursorValues.containsKey name then
          throw ⟨"query_cursor_incomplete",
            "cursor must contain a value for every order_by variable",
            obj [("variable", .string name)]⟩

def parse (value : Value) (defaultLimit : ℕ) (limits : QueryLimits) :
    Except QueryFailure QuerySpec := do
  let object ← required value.asObject "query_invalid" "query must be an object" value
  if let some key := object.keys.find? fun key =>
      !(["find", "inputs", "where", "order_by", "limit", "cursor"].contains key) then
    throw ⟨"query_invalid_field", "query field is not supported: " ++ key,
      obj [("field", .string key)]⟩
  let inputs ← parseInputs object limits
  let (finds, pulls) ← parseFind object limits
  let clauses ← parseWhere object limits
  let orderBy ← parseOrder object limits
  let limit ← parseLimit object defaultLimit limits
  let cursorValues ← parseCursor object
  checkOrder orderBy cursorValues
  return ⟨inputs, finds, pulls, clauses, orderBy, limit, cursorValues, limits⟩

/-! ### What the parser guarantees -/

/-- The limit of a query is positive. -/
lemma parseLimit_pos {object : Map} {defaultLimit limit : ℕ} {limits : QueryLimits}
    (h : parseLimit object defaultLimit limits = .ok limit) : 0 < limit := by
  rw [parseLimit] at h
  cases hget : object.get "limit" with
  | none | some _ =>
      rw [hget] at h
      obtain ⟨parsed, -, h⟩ := Lists.bind_eq_ok h
      by_cases hrange : parsed = 0 ∨ limits.maxResults < parsed
      · simp only [if_pos hrange] at h
        cases h
      · simp only [if_neg hrange] at h
        cases h
        omega

/-- Order terms are variables. -/
lemma checkOrder_variables {orderBy : List OrderTerm} {cursorValues : Map}
    (h : checkOrder orderBy cursorValues = .ok ()) :
    ∀ order ∈ orderBy, order.term.asVariableName.isSome := by
  rw [checkOrder] at h
  by_cases hany : orderBy.any fun order => order.term.asVariableName.isNone
  · rw [if_pos hany] at h
    cases h
  · simp only [List.any_eq_true, not_exists, not_and] at hany
    intro order horder
    simpa [Option.isSome_iff_ne_none] using hany order horder

lemma parse_order {value : Value} {defaultLimit : ℕ} {limits : QueryLimits} {spec : QuerySpec}
    (h : parse value defaultLimit limits = .ok spec) :
    0 < spec.limit ∧ ∀ order ∈ spec.orderBy, order.term.asVariableName.isSome := by
  rw [parse] at h
  obtain ⟨object, -, h⟩ := Lists.bind_eq_ok h
  simp only at h
  split at h
  · cases h
  obtain ⟨inputs, -, h⟩ := Lists.bind_eq_ok h
  obtain ⟨⟨finds, pulls⟩, -, h⟩ := Lists.bind_eq_ok h
  obtain ⟨clauses, -, h⟩ := Lists.bind_eq_ok h
  obtain ⟨orderBy, -, h⟩ := Lists.bind_eq_ok h
  obtain ⟨limit, hlimit, h⟩ := Lists.bind_eq_ok h
  obtain ⟨cursorValues, -, h⟩ := Lists.bind_eq_ok h
  obtain ⟨_, horder, h⟩ := Lists.bind_eq_ok h
  cases h
  exact ⟨parseLimit_pos hlimit, checkOrder_variables horder⟩

end Query

end McpSurfaces
