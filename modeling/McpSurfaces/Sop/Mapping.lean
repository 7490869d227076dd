import McpSurfaces.Sop.Store

/-!
How the steps of a run read its input and the results of other steps: references, mappings,
conditions and rendered instructions.

A reference is a path: `input…`, `input_ref…` or `steps.<id>.<field>…`. All readers see a run
only through its context, the status and the results of its steps.
-/

namespace McpSurfaces

namespace Sop

/-! ### References -/

/-- What a reference can see of a step. -/
def StepState.view (s : StepState) : Value :=
  .object [("step_id", .string s.stepId), ("status", .string s.status.text),
    ("result", .object s.result), ("result_ref", s.resultRef)]

/-- `value_context`. -/
structure Context where
  input : Value
  inputRef : Value
  steps : List StepState

def valueContext (run : Run) : Context := ⟨run.input, run.inputRef, run.steps⟩

/-- `parse::<usize>`. -/
def parseIndex (s : String) : Option ℕ :=
  let digits := match s.toList with
    | '+' :: rest => rest
    | cs => cs
  if digits = [] ∨ ¬ digits.all Char.isDigit then none
  else
    let n := Nat.ofDigitChars 10 digits 0
    if n < 2 ^ 64 then some n else none

/-- The value at a path. -/
def follow : List String → Value → Option Value
  | [], v => some v
  | segment :: rest, .array items => do follow rest (← items[← parseIndex segment]?)
  | segment :: rest, .object fields => do follow rest (← OrderedMap.get fields segment)
  | _ :: _, _ => none

/-- The segments of a path. -/
def segments (reference : String) : List String :=
  (reference.toList.splitOn '.').map String.ofList

/-- A segment that no reference may have. -/
def forbiddenSegment (segment : String) : Bool :=
  segment == "" || segment == "__proto__" || segment == "prototype" || segment == "constructor"

/-- `read_reference`. -/
def readReference (reference : String) (context : Context) : Option Value :=
  let path := segments reference
  if path.any forbiddenSegment then none
  else match path with
    | "input" :: rest => follow rest context.input
    | "input_ref" :: rest => follow rest context.inputRef
    | "steps" :: id :: field :: rest => do
        let step ← context.steps.find? fun s => s.stepId = id
        follow (field :: rest) step.view
    | _ => none

/-! ### Mappings -/

mutual

/-- `resolve_mapping`. -/
def resolveMapping (context : Context) : Value → Except Stop Value
  | .array items => return .array (← resolveItems context items)
  | .object [("$ref", reference)] => do
      let path ← requiredString (some reference) "sop_string_required" 512
      match readReference path context with
      | some v => return v
      | none => throw (refusal "sop_mapping_reference_missing")
  | .object fields => return .object (← resolveFields context fields)
  | v => return v

def resolveItems (context : Context) : List Value → Except Stop (List Value)
  | [] => return []
  | v :: rest => return (← resolveMapping context v) :: (← resolveItems context rest)

def resolveFields (context : Context) :
    List (String × Value) → Except Stop (List (String × Value))
  | [] => return []
  | (key, v) :: rest => return (key, ← resolveMapping context v) :: (← resolveFields context rest)

end

/-! ### Conditions -/

/-- `js_truthy`. -/
def jsTruthy : Value → Bool
  | .null => false
  | .bool b => b
  | .number n => n.asF64 ≠ 0
  | .string s => s ≠ ""
  | .array _ | .object _ => true

/-- What an operator says of the value that a reference has, if it has one. -/
def compareResolved (operation : String) (resolved : Option Value) (comparison : Value) :
    Except Stop Bool :=
  match operation with
  | "exists" => .ok resolved.isSome
  | "not_exists" => .ok resolved.isNone
  | "truthy" => .ok (resolved.any jsTruthy)
  | "falsy" => .ok (resolved.any fun v => !jsTruthy v)
  | "equals" => .ok (resolved.any fun v => v.eqv comparison)
  | "not_equals" => .ok (resolved.all fun v => !v.eqv comparison)
  | "in" => .ok (resolved.any fun v => (comparison.asArray.getD []).any fun c => c.eqv v)
  | "contains" => .ok (resolved.any fun v => (v.asArray.getD []).any fun c => c.eqv comparison)
  | _ => .error (refusal "sop_condition_invalid")

/-- A comparison of the value at a reference. -/
def evaluateComparison (context : Context) (fields : Map) : Except Stop Bool := do
  let reference ← requiredString (fields.get "ref") "sop_string_required" 512
  let operation ← requiredString (fields.get "op") "sop_string_required" 32
  compareResolved operation (readReference reference context) ((fields.get "value").getD .null)

mutual

/-- `evaluate_condition`. -/
def evaluateCondition (context : Context) : Value → Except Stop Bool
  | .null => .ok true
  | .object fields =>
      match allOf context fields with
      | some answer => answer
      | none => match anyOf context fields with
        | some answer => answer
        | none => match noneOf context fields with
          | some answer => answer
          | none => evaluateComparison context fields
  | _ => .error (refusal "sop_condition_invalid")

/-- The conditions under `all`. -/
def allOf (context : Context) : List (String × Value) → Option (Except Stop Bool)
  | [] => none
  | (key, .array items) :: rest => if key = "all" then some (everyHolds context items) else allOf context rest
  | (key, _) :: rest => if key = "all" then none else allOf context rest

/-- The conditions under `any`. -/
def anyOf (context : Context) : List (String × Value) → Option (Except Stop Bool)
  | [] => none
  | (key, .array items) :: rest => if key = "any" then some (someHolds context items) else anyOf context rest
  | (key, _) :: rest => if key = "any" then none else anyOf context rest

/-- The condition under `not`. -/
def noneOf (context : Context) : List (String × Value) → Option (Except Stop Bool)
  | [] => none
  | (key, v) :: rest =>
      if key = "not" then some ((evaluateCondition context v).map Bool.not)
      else noneOf context rest

def everyHolds (context : Context) : List Value → Except Stop Bool
  | [] => .ok true
  | v :: rest => do
      if ¬ (← evaluateCondition context v) then return false
      everyHolds context rest

def someHolds (context : Context) : List Value → Except Stop Bool
  | [] => .ok false
  | v :: rest => do
      if ← evaluateCondition context v then return true
      someHolds context rest

end

/-! ### Instructions -/

section Render

variable [FloatText]

/-- How a value is printed in an instruction. -/
def printed : Value → List Char
  | .string s => s.toList
  | .number n => n.chars
  | .bool b => (if b then "true" else "false").toList
  | v => v.canonicalText.toList

/-- The instructions from a position on: a reference in double braces is replaced by the text
of its value, and braces that are not closed stay. -/
def renderFrom (context : Context) : ℕ → List Char → Except Stop (List Char)
  | 0, cs => .ok cs
  | fuel + 1, cs =>
      match Str.splitOnceChars ['{', '{'] [] cs with
      | none => .ok cs
      | some (before, tail) =>
          match Str.splitOnceChars ['}', '}'] [] tail with
          | none => .ok cs
          | some (inside, rest) =>
              match readReference (Str.trim (String.ofList inside)) context with
              | none => .error (refusal "sop_mapping_reference_missing")
              | some v => do return before ++ printed v ++ (← renderFrom context fuel rest)

/-- `render_instructions`: every reference takes at least four characters, so that there is
fuel for all of them. -/
def renderInstructions (instructions : String) (context : Context) : Except Stop String := do
  let text := instructions.toList
  return String.ofList (← renderFrom context (text.length + 1) text)

end Render

end Sop

end McpSurfaces
