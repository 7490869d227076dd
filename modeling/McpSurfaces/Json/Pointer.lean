import McpSurfaces.Foundation.Str
import McpSurfaces.Foundation.TextLines
import McpSurfaces.Json.Value

/-!
Pointers into JSON values.

* `Value.pointer`: what a list of tokens leads to, `Value::pointer`. `pointerTokens`: the tokens of a
  path.
-/

namespace McpSurfaces

namespace Str

def splitChars (c : Char) : List Char → List (List Char)
  | [] => [[]]
  | d :: rest =>
      if d = c then [] :: splitChars c rest
      else match splitChars c rest with
        | [] => [[d]]
        | part :: parts => (d :: part) :: parts

/-- `str::split` with a character. -/
def split (s : String) (c : Char) : List String := (splitChars c s.toList).map String.ofList

lemma splitChars_ne_nil (c : Char) (cs : List Char) : splitChars c cs ≠ [] := by
  cases cs with
  | nil => exact List.cons_ne_nil _ _
  | cons d rest =>
      rw [splitChars]
      split
      · exact List.cons_ne_nil _ _
      · split <;> exact List.cons_ne_nil _ _

end Str

/-! ### Tokens -/

def unescapeToken : List Char → List Char
  | '~' :: '1' :: rest => '/' :: unescapeToken rest
  | '~' :: '0' :: rest => '~' :: unescapeToken rest
  | c :: rest => c :: unescapeToken rest
  | [] => []

/-- The tokens of a path that is written behind a slash. -/
def pointerTokens (path : String) : List String :=
  (Str.split path '/').map fun token => String.ofList (unescapeToken token.toList)

lemma pointerTokens_ne_nil (path : String) : pointerTokens path ≠ [] := by
  rw [pointerTokens, Ne, List.map_eq_nil_iff, Str.split, List.map_eq_nil_iff]
  exact Str.splitChars_ne_nil _ _

/-! ### What a pointer leads to -/

namespace Value

/-- The index that a token is for an array. -/
def parseIndex (token : String) : Option ℕ :=
  if Str.startsWith token "+" ∨ (Str.startsWith token "0" ∧ token.length ≠ 1) then none
  else TextLines.parseUsize token.toList

/-- What one token leads to. -/
def child (token : String) : Value → Option Value
  | .object fields => OrderedMap.get fields token
  | .array items => (parseIndex token).bind fun i => items[i]?
  | _ => none

/-- `Value::pointer`. -/
def pointer : List String → Value → Option Value
  | [], v => some v
  | token :: rest, v => (v.child token).bind (pointer rest)

@[simp] lemma pointer_nil (v : Value) : pointer [] v = some v := rfl

lemma pointer_cons (token : String) (rest : List String) (v : Value) :
    pointer (token :: rest) v = (v.child token).bind (pointer rest) := rfl

/-- Nothing is in a text. -/
lemma pointer_string (s : String) {tokens : List String} (h : tokens ≠ []) :
    pointer tokens (.string s) = none := by
  cases tokens with
  | nil => exact absurd rfl h
  | cons token rest => rfl

end Value

end McpSurfaces
