import McpSurfaces.EventLedger.Chain
import McpSurfaces.Foundation.IsoTime
import McpSurfaces.Foundation.Str
import McpSurfaces.Foundation.Work
import McpSurfaces.Json.Canonical
import McpSurfaces.Json.Reread
import McpSurfaces.Json.Size

/-!
What the procedures of the SOP surface read and check of a value: texts of a call, bounds,
references to stored values, schemas, fingerprints and the identities made of them.

* A call stops with a diagnostic, or crashes (a panic, a stack that is full). A diagnostic may
  be caught by a procedure, a crash may not.
* `column` is what a value is after it was written to a `_json` column and read back.
* `Env` is what a call takes from its surroundings: the clock, random identities, the stack.
-/

namespace McpSurfaces

namespace Value

mutual

/-- How deep arrays and objects are nested. -/
def depth : Value → ℕ
  | .array items => depthList items + 1
  | .object fields => depthFields fields + 1
  | _ => 0

def depthList : List Value → ℕ
  | [] => 0
  | v :: rest => max v.depth (depthList rest)

def depthFields : List (String × Value) → ℕ
  | [] => 0
  | (_, v) :: rest => max v.depth (depthFields rest)

end

end Value

namespace Sop

open EventLedger (Digest)

/-! ### How a call stops -/

/-- `diagnostic`. -/
structure Diagnostic where
  code : String
  message : String
deriving DecidableEq, Repr

/-- `diagnostic_text`. -/
def Diagnostic.text (d : Diagnostic) : String := d.code ++ ":" ++ d.message

inductive Stop where
  | refused (d : Diagnostic)
  | crashed
deriving DecidableEq, Repr

/-- A diagnostic whose message is its code. -/
def refusal (code : String) : Stop := .refused ⟨code, code⟩

/-- A diagnostic whose message names what it is about. -/
def refusalOf (code about : String) : Stop := .refused ⟨code, code ++ ":" ++ about⟩

/-! ### Texts -/

/-- `required_string` of a text that is there. -/
def requiredText (s code : String) (max : ℕ) : Except Stop String :=
  let text := Str.trim s
  if text = "" then .error (refusal code)
  else if max < text.length then .error (refusal (code ++ "_too_long"))
  else .ok text

/-- `required_string`. -/
def requiredString (v : Option Value) (code : String) (max : ℕ) : Except Stop String :=
  match v.bind Value.asStr with
  | some s => requiredText s code max
  | none => .error (refusal code)

/-- `optional_string` of a text that may be there. -/
def optionalText (s : Option String) : Option String := (s.map Str.trim).filter (· ≠ "")

/-- `optional_string`. -/
def optionalString (v : Option Value) : Option String := optionalText (v.bind Value.asStr)

lemma requiredText_ok {s code text : String} {max : ℕ} (h : requiredText s code max = .ok text) :
    text = Str.trim s ∧ text ≠ "" := by
  dsimp only [requiredText] at h
  split_ifs at h with hblank
  cases h
  exact ⟨rfl, hblank⟩

lemma requiredString_ok {v : Option Value} {code text : String} {max : ℕ}
    (h : requiredString v code max = .ok text) : optionalString v = some text := by
  unfold requiredString at h
  split at h
  next s hs =>
    obtain ⟨rfl, hne⟩ := requiredText_ok h
    simp [optionalString, optionalText, hs, hne]
  next => cases h

/-- A text that was read is read as it is. -/
lemma optionalText_of_read {v : Option String} {text : String} (h : optionalText v = some text) :
    optionalText (some text) = some text := by
  rw [optionalText, Option.filter_eq_some_iff, Option.map_eq_some_iff] at h
  obtain ⟨⟨s, -, rfl⟩, hne⟩ := h
  rw [optionalText, Option.map_some, Str.trim_trim, Option.filter_eq_some_iff]
  exact ⟨rfl, hne⟩

lemma trim_of_read {v : Option String} {text : String} (h : optionalText v = some text) :
    Str.trim text = text := by
  have hread := optionalText_of_read h
  rw [optionalText, Option.map_some, Option.filter_eq_some_iff] at hread
  exact Option.some.inj hread.1

def optionalBoundedString (v : Option Value) (code : String) (max : ℕ) :
    Except Stop (Option String) :=
  match optionalString v with
  | none => .ok none
  | some text => if max < text.length then .error (refusal code) else .ok (some text)

/-- An argument that is there and not null. -/
def given (v : Option Value) : Option Value := v.filter (· ≠ .null)

def boundedIntegerArg (v : Option Value) (fallback min max : ℤ) (code : String) : Except Stop ℤ := do
  let parsed ← match given v with
    | none => .ok fallback
    | some value => match value.asI64 with
      | some n => .ok n
      | none => .error (refusal code)
  if parsed < min ∨ max < parsed then throw (refusal code)
  return parsed

/-- An optional text as JSON. -/
def optionText : Option String → Value
  | some s => .string s
  | none => .null

/-! ### Values -/

section Values

variable [FloatText] [FloatRead] [Digest]

/-- The length of a text in bytes. -/
def byteLength (s : String) : ℕ := s.utf8ByteSize

/-- A value is bounded: `Value.bytes` is the length of its canonical text. -/
def assertBound (v : Value) (field : String) (max : ℕ) : Except Stop Unit :=
  if max < v.bytes then .error (refusal (field ++ "_too_large")) else .ok ()

def maxInlineValueBytes : ℕ := 16 * 1024
def maxRunStateBytes : ℕ := 128 * 1024
def maxTemplateDefinitionBytes : ℕ := 128 * 1024
def maxOutboxPayloadBytes : ℕ := 16 * 1024
def maxOutboxReceiptBytes : ℕ := 8 * 1024

def fingerprint (v : Value) : String := Digest.sha256 v.canonicalText

/-- `deterministic_id`: 24 digits of the digest behind a word that says what it names. -/
def deterministicId (kind value : String) : String :=
  kind ++ String.ofList ((Digest.sha256 value).toList.take 24)

/-- How deep the parser of JSON follows arrays and objects. -/
def parserDepth : ℕ := 127

/-- A value that was written to a `_json` column and read back: one that is nested too deep for
the parser comes back as its text. -/
def column (v : Value) : Value :=
  if v.depth ≤ parserDepth then v.reread else .string v.canonicalText

/-- The digits of a SHA-256 in lower case. -/
def isSha256 (s : String) : Bool :=
  s.toList.length == 64 && s.toList.all fun c => c.isDigit || ('a' ≤ c && c ≤ 'f')

/-- The size in a reference. -/
def refByteLength (object : Map) (field : String) : Except Stop Value :=
  match given (object.get "byte_length") with
  | none => .ok .null
  | some length => match length.asI64 with
    | some (.ofNat n) => .ok (.ofNat n)
    | _ => .error (refusal (field ++ "_invalid"))

/-- The type of media in a reference. -/
def refMediaType (object : Map) : Except Stop Value :=
  match given (object.get "media_type") with
  | none => .ok .null
  | some media => (requiredString (some media) "sop_string_required" 200).map .string

/-- `normalize_value_ref`: a reference to a value that is stored elsewhere. -/
def normalizeValueRef (v : Option Value) (field : String) : Except Stop Value := do
  match given v with
  | none => return .null
  | some value => match value.asObject with
    | none => throw (refusal (field ++ "_invalid"))
    | some object =>
      if ¬ object.keys.all (["ref", "sha256", "byte_length", "media_type"].contains ·) then
        throw (refusal (field ++ "_invalid"))
      let reference ← requiredString (object.get "ref") "sop_string_required" 2048
      let sha256 ← requiredString (object.get "sha256") "sop_string_required" 64
      let sha256 := sha256.toLower
      if ¬ isSha256 sha256 then throw (refusal (field ++ "_invalid"))
      let byteLength ← refByteLength object field
      let mediaType ← refMediaType object
      return .object [("ref", .string reference), ("sha256", .string sha256),
        ("byte_length", byteLength), ("media_type", mediaType)]

end Values

/-! ### Schemas -/

/-- The validator of JSON Schema, a crate of its own: which schemas it takes, and which values
meet them. -/
class JsonSchema where
  wellFormed : Value → Bool
  accepts : Value → Value → Bool

/-- `validate_schema`. -/
def validateSchema [JsonSchema] (schema value : Value) (code : String) : Except Stop Unit :=
  if schema = .null then .ok ()
  else if ¬ JsonSchema.wellFormed schema then .error (refusal "sop_json_schema_invalid")
  else if JsonSchema.accepts schema value then .ok ()
  else .error (refusal code)

/-! ### The surroundings of a call -/

/-- What a call finds around it: the clock, which stands still for a transaction, the random
identity of each run that it may admit (by procedure and occurrence key), that of a lease, and
how deep procedures may nest. -/
structure Env where
  now : Instant
  uuid : String → String → String
  token : String
  stack : ℕ

section Clock

variable [IsoTime]

/-- `format_iso`: an instant without a date is a panic. -/
def formatIso (t : Instant) : Except Stop String :=
  match IsoTime.format t with
  | some text => .ok text
  | none => .error .crashed

/-- `parse_iso`. -/
def parseIso (s : String) : Option Instant := IsoTime.parse (Str.trim s)

/-- `normalize_timestamp`. -/
def normalizeTimestamp (s code : String) : Except Stop String :=
  match parseIso s with
  | some t => formatIso t
  | none => .error (refusal code)

end Clock

end Sop

end McpSurfaces
