import McpSurfaces.DelegatedTask.Record

/-!
The conditions of steps.

* `parseConditionCall`: a condition that combines others, `name(arg,…)`.
* `conditionPasses`: whether the condition of a step holds of a record.
-/

namespace McpSurfaces

namespace DelegatedTask

/-! ### Combinations -/

/-- The parts of the arguments: a comma separates them outside of all brackets. -/
def splitArguments : ℤ → List Char → List Char → List (List Char)
  | _, part, [] => [part]
  | depth, part, c :: rest =>
      if c = '(' then splitArguments (depth + 1) (part ++ [c]) rest
      else if c = ')' then splitArguments (depth - 1) (part ++ [c]) rest
      else if c = ',' ∧ depth = 0 then part :: splitArguments depth [] rest
      else splitArguments depth (part ++ [c]) rest

/-- `parse_condition_call`. -/
def parseConditionCall (value : String) : Option (String × List String) :=
  if '(' ∈ value.toList ∧ value.toList.getLast? = some ')' then
    let body := ((value.toList.dropWhile (· ≠ '(')).drop 1).dropLast
    some (String.ofList (value.toList.takeWhile (· ≠ '(')),
      (splitArguments 0 [] body).map fun part => Str.trim (String.ofList part))
  else none

/-! ### What is accepted -/

/-- The names of the statuses of a step. -/
def statusNames : List String :=
  ["pending", "running", "completed", "failed", "skipped", "blocked", "noted"]

/-- The text behind a beginning. -/
def suffix (value pre : String) : String := String.ofList (value.toList.drop pre.toList.length)

/-- `valid_condition`, to a depth of combinations. -/
def validCondition : ℕ → String → Bool
  | depth, condition =>
      let value := Str.trim condition
      let parts := Str.split value ':'
      if value ∈ ["always", "on_success", "on_failure", "review_failed", "no_residual_risks"] then
        true
      else if Str.startsWith value "acceptance:" then Str.trim (suffix value "acceptance:") ≠ ""
      else if Str.startsWith value "result_has:" then Str.trim (suffix value "result_has:") ≠ ""
      else if parts.head? = some "step" then
        parts.length = 3 ∧ parts[1]? ≠ some "" ∧ parts[2]?.any (· ∈ statusNames)
      else if parts.head? = some "kind" then
        parts.length = 3 ∧ parts[1]? ≠ some "" ∧ parts[2]? ≠ some ""
      else match depth, parseConditionCall value with
        | depth + 1, some (name, args) =>
            (((name = "all" ∨ name = "any") ∧ 2 ≤ args.length) ∨ (name = "not" ∧ args.length = 1)) ∧
              args.all (validCondition depth)
        | _, _ => false

/-! ### What holds -/

section Passes

variable (resultText : String) (task : Task)

/-- The conditions that combine nothing. -/
def basicPasses (value : String) : Option Bool :=
  let states := task.states.values
  let parts := Str.split value ':'
  if value = "always" then some true
  else if value = "on_failure" then
    some (states.any fun s => s.status = .failed ∨ s.status = .blocked)
  else if value = "on_success" then
    some (states.all fun s => ¬ (s.status = .failed ∨ s.status = .blocked))
  else if value = "review_failed" then
    some (states.any fun s => s.kind = "review" ∧ s.status = .failed)
  else if value = "no_residual_risks" then some true
  else if Str.startsWith value "acceptance:" then
    some (task.acceptanceVerdict = suffix value "acceptance:")
  else if Str.startsWith value "step:" then
    some (parts.length = 3 ∧ task.stepStatus ((parts[1]?).getD "") = parts[2]?)
  else if Str.startsWith value "kind:" then
    let matching := states.filter fun s => some s.kind = parts[1]?
    some (parts.length = 3 ∧ matching ≠ [] ∧ matching.all fun s => some s.status.text = parts[2]?)
  else if Str.startsWith value "result_has:" then
    some (Str.contains resultText (suffix value "result_has:"))
  else none

/-- `condition_passes`, to a depth of combinations. No task is given residual risks. -/
def passesWithin : ℕ → Option String → Bool
  | depth, condition =>
      match (condition.map Str.trim).filter (· ≠ "") with
      | none => true
      | some value =>
          match basicPasses resultText task value with
          | some passes => passes
          | none =>
              match depth, parseConditionCall value with
              | depth + 1, some (name, args) =>
                  if name = "all" then
                    2 ≤ args.length ∧ args.all fun arg => passesWithin depth (some arg)
                  else if name = "any" then
                    2 ≤ args.length ∧ args.any fun arg => passesWithin depth (some arg)
                  else if name = "not" then
                    args.length = 1 ∧ args.all fun arg => ¬ passesWithin depth (some arg)
                  else false
              | _, _ => false

/-- `condition_passes`. -/
def conditionPasses (condition : Option String) : Bool :=
  passesWithin resultText task ((condition.getD "").toList.length) condition

variable {resultText task}

/-- A step without a condition may run. -/
@[simp] lemma conditionPasses_none : conditionPasses resultText task none = true := rfl

end Passes

end DelegatedTask

end McpSurfaces
