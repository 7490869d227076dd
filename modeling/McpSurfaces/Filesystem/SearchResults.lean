import McpSurfaces.EventLedger.Chain
import McpSurfaces.Filesystem.ReadFile
import McpSurfaces.Json.Reread
import Mathlib.Data.String.Basic

/-!
Search results that are too large to be answered inline: `bounded_search_tool_result`, which stores
them and answers an envelope, and `fs_search_results_read`, which reads them in pages.

* **`not_recovered`**: the envelope with the pages behind it is never the whole result.
-/

namespace McpSurfaces

namespace Filesystem

namespace SearchResults

open EventLedger (Digest)
open OffsetPaging TextLines

/-! ### The store -/

/-- `SEARCH_INLINE_CHAR_LIMIT` and `SEARCH_MAX_INLINE_CHAR_LIMIT`. -/
def inlineCharLimit : ℕ := 6000

def maxInlineCharLimit : ℕ := 20000

/-- `OUTPUT_MAX_BYTES`. -/
def outputMaxBytes : ℕ := 10 * 1024 * 1024

/-- `OUTPUT_PAGE_MAX_CHARS`. -/
def outputPageMaxChars : ℕ := 20000

/-- What stands under the name of an output: a directory, or a file with its size and the JSON that
is parsed of it. -/
inductive OutputEntry
  | directory
  | file (size : ℕ) (parsed : Option Value)

/-- The directory of the outputs, by their ids. -/
abbrev Outputs := OrderedMap String OutputEntry

section Writing

variable [FloatText] [FloatRead] [Digest]

/-- The text of a result. -/
def resultText (value : Value) : Text := value.text.toList

/-- The reference to an output. -/
def referenceOf (outputId : String) : String := "mcp_output:" ++ outputId

/-- The limit for what is answered inline. -/
def inlineLimit (toolName : String) (args : Map) : ℕ :=
  if toolName = "fs_search" then
    (min (max ((integer args "max_inline_chars").getD inlineCharLimit) inlineCharLimit)
      maxInlineCharLimit).toNat
  else inlineCharLimit

/-- The record of an output. -/
def outputRecord (toolName outputId now : String) (limit : ℕ) (value : Value) : Value :=
  .object [("schema", .string "narada.mcp_output_ref.v1"),
    ("ref", .string (referenceOf outputId)), ("output_id", .string outputId),
    ("tool_name", .string toolName), ("created_at", .string now),
    ("content_type", .string "application/json"), ("inline_char_limit", .ofNat limit),
    ("full_output_char_length", .ofNat (resultText value).length), ("truncated", .bool true),
    ("sha256", .string (Digest.sha256 value.text)), ("max_bytes", .ofNat outputMaxBytes),
    ("full_output", value)]

/-- A record with a line feed behind it, unless it is too large or there is something of its
name. -/
def storeRecord (outputs : Outputs) (outputId : String) (record : Value) : Outputs :=
  let size := record.text.utf8ByteSize + 1
  if size ≤ outputMaxBytes ∧ outputs.get outputId = none then
    outputs.insert outputId (.file size (some record.reread))
  else outputs

/-- The envelope that is answered for a stored result. -/
structure Envelope where
  status : String
  outputRef : String
  resultMaterialized : Bool
  toolName : String
  offset : ℕ
  limit : ℕ
  nextOffset : ℕ
  outputText : Text
  fullOutputCharLength : ℕ

/-- What a tool answers. -/
inductive ToolAnswer
  | inline (value : Value)
  | paged (envelope : Envelope)

/-- The envelope of a result. -/
def envelopeOf (toolName outputId : String) (limit : ℕ) (value : Value) : Envelope where
  status := ((value.get "status").bind Value.asStr).getD "ok"
  outputRef := referenceOf outputId
  resultMaterialized := true
  toolName := toolName
  offset := 0
  limit := limit
  nextOffset := (resultText value).length
  outputText := (resultText value).take (min limit 2000)
  fullOutputCharLength := (resultText value).length

/-- `bounded_search_tool_result`, with a new id for an output. -/
def boundedSearchToolResult (outputs : Outputs) (toolName outputId now : String) (value : Value)
    (args : Map) : ToolAnswer × Outputs :=
  let limit := inlineLimit toolName args
  if (resultText value).length ≤ limit then (.inline value, outputs)
  else (.paged (envelopeOf toolName outputId limit value),
    storeRecord outputs outputId (outputRecord toolName outputId now limit value))

end Writing

/-! ### The reader -/

/-- A character of an id. -/
def isIdChar (c : Char) : Bool := c.isAlphanum || c = '_' || c = '-'

/-- A page of an output. -/
structure OutputPage where
  reference : String
  toolName : Option Value
  fullOutputCharLength : ℕ
  byteSize : ℕ
  originalTruncated : Bool
  offset : ℕ
  limit : ℕ
  nextOffset : Option ℕ
  outputText : Text

/-- A failure that names the reference. -/
def refError (code reference : String) : FsError :=
  ⟨code, code ++ ": " ++ reference, .object [("ref", .string reference)]⟩

section Reading

variable [FloatText] [Digest]

/-- The id that a reference names. -/
def idOf (reference : String) : Except FsError String :=
  if Str.startsWith reference "mcp_output:" then
    let id := String.ofList (reference.toList.drop 11)
    if id.utf8ByteSize < 3 ∨ 64 < id.utf8ByteSize ∨ !id.toList.all isIdChar then
      .error (refError "output_ref_invalid" reference)
    else .ok id
  else .error (refError "output_ref_invalid" reference)

/-- The record of an output, with its size. -/
def readRecord (outputs : Outputs) (reference id : String) : Except FsError (ℕ × Value) :=
  match outputs.get id with
  | none => .error (refError "output_ref_not_found" reference)
  | some .directory => .error (refError "output_ref_not_file" reference)
  | some (.file size parsed) =>
      if outputMaxBytes < size then
        .error ⟨"output_ref_too_large", "output_ref_too_large: " ++ toString size,
          .object [("ref", .string reference), ("size", .ofNat size),
            ("max_bytes", .ofNat outputMaxBytes)]⟩
      else match parsed with
        | none => .error (refError "output_ref_invalid_json" reference)
        | some record => .ok (size, record)

/-- The result in a record that says what it is. -/
def checkRecord (reference id : String) (record : Value) : Except FsError Value :=
  let text (key : String) : Option String := (record.get key).bind Value.asStr
  let fullOutput := (record.get "full_output").getD .null
  if text "schema" ≠ some "narada.mcp_output_ref.v1" ∨ text "ref" ≠ some reference ∨
      text "output_id" ≠ some id then .error (refError "output_ref_metadata_mismatch" reference)
  else if text "sha256" ≠ some (Digest.sha256 fullOutput.text) then
    .error (refError "output_ref_sha256_mismatch" reference)
  else .ok fullOutput

/-- The window of the text of a result. -/
def outputPage (reference : String) (size : ℕ) (record fullOutput : Value) (args : Map) :
    OutputPage :=
  let chars := resultText fullOutput
  let offset := (max ((integer args "offset").getD 0) 0).toNat
  let limit := (min (max ((integer args "limit").getD 4000) 1) outputPageMaxChars).toNat
  let start := min offset chars.length
  let stop := min (start + limit) chars.length
  { reference
    toolName := record.get "tool_name"
    fullOutputCharLength := chars.length
    byteSize := size
    originalTruncated := ((record.get "truncated").bind Value.asBool).getD true
    offset
    limit
    nextOffset := if stop < chars.length then some stop else none
    outputText := (chars.take stop).drop start }

/-- `fs_search_results_read`. -/
def fsSearchResultsRead (outputs : Outputs) (args : Map) : Except FsError OutputPage := do
  let reference := (((args.get "ref").or (args.get "output_ref")).bind Value.asStr).getD ""
  let id ← idOf reference
  let (size, record) ← readRecord outputs reference id
  let fullOutput ← checkRecord reference id record
  return outputPage reference size record fullOutput args

end Reading

/-! ### What is stored -/

variable [FloatText] [FloatRead] [Digest] {outputs : Outputs} {toolName outputId now : String}
  {limit : ℕ} {value : Value}

section

omit [FloatRead] [Digest]

lemma resultText_eq (value : Value) : resultText value = value.chars := by
  rw [resultText, Value.text_eq_ofList, String.toList_ofList]

lemma length_chars_le_fieldsChars {key : String} {fields : Map} (h : (key, value) ∈ fields) :
    value.chars.length ≤ (Value.fieldsChars fields).length := by
  induction fields with
  | nil => cases h
  | cons field rest ih =>
      simp only [Value.fieldsChars, List.length_cons, List.length_append]
      rcases List.mem_cons.mp h with rfl | hrest
      · dsimp only
        omega
      · have := ih hrest
        omega

/-- A field is no longer than the object. -/
lemma length_chars_le {key : String} {fields : Map} (h : (key, value) ∈ fields) :
    value.chars.length ≤ (Value.object fields).chars.length := by
  cases fields with
  | nil => cases h
  | cons field rest =>
      simp only [Value.chars, List.length_cons, List.length_append]
      rcases List.mem_cons.mp h with rfl | hrest
      · dsimp only
        omega
      · have := length_chars_le_fieldsChars hrest
        omega

end

omit [FloatRead] in
/-- A result is no longer than its record. -/
lemma length_resultText_le :
    (resultText value).length ≤
      (outputRecord toolName outputId now limit value).text.utf8ByteSize := by
  have hfield : (resultText value).length ≤
      (outputRecord toolName outputId now limit value).chars.length := by
    rw [resultText_eq]
    have hmem : ("full_output", value) ∈ (Value.asObject
        (outputRecord toolName outputId now limit value)).getD [] := by
      simp [outputRecord, Value.asObject]
    exact length_chars_le hmem
  have hbytes : ∀ l : List Char, l.length ≤ String.utf8Len l := by
    intro l
    induction l with
    | nil => exact le_rfl
    | cons c l ih =>
        have := Char.utf8Size_pos c
        rw [String.utf8Len_cons, List.length_cons]
        omega
  rw [Value.text_eq_ofList, String.utf8ByteSize_ofList]
  exact hfield.trans (hbytes _)

omit [Digest] in
/-- What stands under a new id is the record, if it fits. -/
lemma get_storeRecord {record : Value} (hnew : outputs.get outputId = none) :
    (storeRecord outputs outputId record).get outputId =
      if record.text.utf8ByteSize + 1 ≤ outputMaxBytes then
        some (.file (record.text.utf8ByteSize + 1) (some record.reread))
      else none := by
  simp only [storeRecord, hnew, and_true]
  split_ifs
  · exact OrderedMap.get_insert_self _ _ _
  · exact hnew

/-! ### What is read -/

/-- The arguments of a call that reads an output at an offset. -/
def readArgs (outputId : String) (base : ℕ → Map) (i offset : ℕ) : Map :=
  ((base i).insert "ref" (.string (referenceOf outputId))).insert "offset" (.ofNat offset)

/-- The calls that follow the next offset of `fs_search_results_read`. -/
def readOn (outputs : Outputs) (outputId : String) (base : ℕ → Map) (i offset : ℕ) :
    Except FsError OutputPage :=
  fsSearchResultsRead outputs (readArgs outputId base i offset)

omit [FloatText] [FloatRead] [Digest] in
lemma eq_of_idOf {id : String} (h : idOf (referenceOf outputId) = .ok id) : id = outputId := by
  rw [idOf] at h
  dsimp only at h
  split_ifs at h
  cases h
  rw [referenceOf, String.toList_append]
  exact String.ofList_toList

omit [FloatRead] in
lemma checkRecord_eq_ok {reference id : String} {record fullOutput : Value}
    (h : checkRecord reference id record = .ok fullOutput) :
    (record.get "full_output").getD .null = fullOutput ∧
      (record.get "sha256").bind Value.asStr = some (Digest.sha256 fullOutput.text) := by
  rw [checkRecord] at h
  dsimp only at h
  split_ifs at h with hmeta hsha
  cases h
  exact ⟨rfl, not_not.mp hsha⟩

/-- A page that is read of what the call stores is a page of the result, and its record fits. -/
lemma readOn_eq_ok {base : ℕ → Map} {i offset : ℕ} {page : OutputPage}
    (hnew : outputs.get outputId = none)
    (hsha : Digest.sha256 value.reread.text = Digest.sha256 value.text →
      value.reread.text = value.text)
    (h : readOn (storeRecord outputs outputId (outputRecord toolName outputId now limit value))
      outputId base i offset = .ok page) :
    (outputRecord toolName outputId now limit value).text.utf8ByteSize + 1 ≤ outputMaxBytes ∧
      ∃ size record fullOutput, resultText fullOutput = resultText value ∧
        page = outputPage (referenceOf outputId) size record fullOutput
          (readArgs outputId base i offset) := by
  have href : (readArgs outputId base i offset).get "ref" =
      some (.string (referenceOf outputId)) := by
    rw [readArgs, OrderedMap.get_insert_of_ne _ _ (by decide), OrderedMap.get_insert_self]
  rw [readOn, fsSearchResultsRead, href] at h
  obtain ⟨id, hid, h⟩ := Lists.bind_eq_ok h
  obtain rfl := eq_of_idOf hid
  obtain ⟨⟨size, record⟩, hrecord, h⟩ := Lists.bind_eq_ok h
  obtain ⟨fullOutput, hfull, h⟩ := Lists.bind_eq_ok h
  rw [readRecord, get_storeRecord hnew] at hrecord
  split_ifs at hrecord with hfits
  dsimp only at hrecord
  split_ifs at hrecord
  cases hrecord
  obtain ⟨hfull, hdigest⟩ := checkRecord_eq_ok hfull
  obtain rfl : fullOutput = value.reread := by
    rw [← hfull, Value.get_reread]
    rfl
  rw [Value.get_asStr_reread] at hdigest
  refine ⟨hfits, _, _, _, ?_, (Except.ok.inj h).symm⟩
  rw [resultText, hsha (Option.some.inj hdigest).symm, resultText]

omit [FloatRead] [Digest] in
/-- A page is a window of the text of its result. -/
lemma windowed_outputPage {reference : String} {size : ℕ} {record fullOutput : Value}
    {args : Map} {offset : ℕ} (hlength : (resultText fullOutput).length < 2 ^ 63)
    (hoffset : integer args "offset" = some (offset : ℤ)) :
    Windowed OutputPage.outputText OutputPage.nextOffset id (fun offset => offset < 2 ^ 63)
      (resultText fullOutput) offset (outputPage reference size record fullOutput args) := by
  obtain ⟨limit, hlimit, hpos⟩ : ∃ limit, limit =
      (min (max ((integer args "limit").getD 4000) 1) (outputPageMaxChars : ℤ)).toNat ∧
      0 < limit := by
    refine ⟨_, rfl, ?_⟩
    have : (outputPageMaxChars : ℤ) = 20000 := rfl
    omega
  have hat : (max (offset : ℤ) 0).toNat = offset := by omega
  have hwindow : (outputPage reference size record fullOutput args).outputText =
      ((resultText fullOutput).drop offset).take limit := by
    simp only [outputPage, hoffset, Option.getD_some, hat, ← hlimit]
    rcases Nat.lt_or_ge offset (resultText fullOutput).length with hin | hout
    · rw [min_eq_left hin.le, List.drop_take, List.take_eq_take_iff, List.length_drop]
      omega
    · rw [min_eq_right hout, List.drop_eq_nil_of_le hout, List.take_nil]
      exact List.drop_eq_nil_of_le (List.length_take_le _ _ |>.trans (by omega))
  have hcount : (outputPage reference size record fullOutput args).outputText.length =
      min limit ((resultText fullOutput).length - offset) := by
    rw [hwindow, List.length_take, List.length_drop]
  have hnext : (outputPage reference size record fullOutput args).nextOffset =
      if offset + limit < (resultText fullOutput).length then some (offset + limit) else none := by
    simp only [outputPage, hoffset, Option.getD_some, hat, ← hlimit]
    split_ifs <;> first | rfl | omega | exact congrArg some (by omega)
  refine ⟨⟨limit, hpos, hwindow⟩, fun hmore => ?_, fun hdone => ?_⟩
  · have hin : offset + limit < (resultText fullOutput).length := by omega
    exact ⟨offset + limit, by rw [hnext, if_pos hin], by rw [id]; omega, by omega⟩
  · rw [hnext, if_neg (by omega)]

/-! ### Recovery -/

/-- The text of an envelope, with the pages from its next offset on, is the whole result. -/
def Recovered (store : Outputs) (outputId : String) (base : ℕ → Map) (envelope : Envelope)
    (value : Value) : Prop :=
  ∃ pages, Follows (readOn store outputId base) OutputPage.nextOffset 0 envelope.nextOffset pages ∧
    envelope.outputText ++ pages.flatMap OutputPage.outputText = resultText value

/-- There is a record of the result under the id. -/
def Stored (store : Outputs) (outputId : String) (value : Value) : Prop :=
  ∃ size record, store.get outputId = some (.file size (some record)) ∧
    record.get "full_output" = some value.reread

/-- A record of the result is under the id exactly if it fits. -/
lemma stored_iff (hnew : outputs.get outputId = none) :
    Stored (storeRecord outputs outputId (outputRecord toolName outputId now limit value)) outputId
        value ↔
      (outputRecord toolName outputId now limit value).text.utf8ByteSize + 1 ≤ outputMaxBytes := by
  constructor
  · rintro ⟨size, record, hget, -⟩
    rw [get_storeRecord hnew] at hget
    split_ifs at hget with hfits
    exact hfits
  · intro hfits
    refine ⟨_, _, (get_storeRecord hnew).trans (if_pos hfits), ?_⟩
    rw [Value.get_reread]
    rfl

/-- Nothing is behind the next offset of an envelope. -/
lemma flatMap_outputText {base : ℕ → Map} {pages : List OutputPage}
    (hnew : outputs.get outputId = none)
    (hsha : Digest.sha256 value.reread.text = Digest.sha256 value.text →
      value.reread.text = value.text)
    (h : Follows
      (readOn (storeRecord outputs outputId (outputRecord toolName outputId now limit value))
        outputId base)
      OutputPage.nextOffset 0 (envelopeOf toolName outputId limit value).nextOffset pages) :
    pages.flatMap OutputPage.outputText = [] := by
  obtain ⟨first, hfirst⟩ := h.exists_page
  have hfits := (readOn_eq_ok hnew hsha hfirst).1
  have hlength : (resultText value).length < 2 ^ 63 := by
    have hle : (resultText value).length ≤
        (outputRecord toolName outputId now limit value).text.utf8ByteSize := length_resultText_le
    have hmax : outputMaxBytes = 10485760 := rfl
    omega
  have hwindowed : ∀ i offset page, offset < 2 ^ 63 →
      readOn (storeRecord outputs outputId (outputRecord toolName outputId now limit value))
        outputId base i offset = .ok page →
      Windowed OutputPage.outputText OutputPage.nextOffset id (fun offset => offset < 2 ^ 63)
        (resultText value) (id offset) page := by
    intro i offset page hoffset hpage
    obtain ⟨-, size, record, fullOutput, hsame, rfl⟩ := readOn_eq_ok hnew hsha hpage
    rw [← hsame]
    exact windowed_outputPage (hsame ▸ hlength) (integer_insert_self _ _ hoffset)
  rw [flatMap_of_follows hwindowed hlength h]
  exact List.drop_length

/-- The text of an envelope alone is not the whole of a large result. -/
lemma not_recovered_envelope {base : ℕ → Map} (hnew : outputs.get outputId = none)
    (hsha : Digest.sha256 value.reread.text = Digest.sha256 value.text →
      value.reread.text = value.text) (hlarge : inlineCharLimit < (resultText value).length) :
    ¬ Recovered
      (storeRecord outputs outputId (outputRecord toolName outputId now limit value)) outputId base
      (envelopeOf toolName outputId limit value) value := by
  rintro ⟨pages, hpages, hwhole⟩
  rw [flatMap_outputText hnew hsha hpages, List.append_nil] at hwhole
  have hlength := congrArg List.length hwhole
  rw [envelopeOf, List.length_take] at hlength
  have hlimit : inlineCharLimit = 6000 := rfl
  omega

omit [FloatText] [FloatRead] [Digest] in
lemma inlineCharLimit_le (toolName : String) (args : Map) :
    inlineCharLimit ≤ inlineLimit toolName args := by
  have hlimit : inlineCharLimit = 6000 := rfl
  have hmax : maxInlineCharLimit = 20000 := rfl
  rw [inlineLimit]
  split_ifs
  · omega
  · exact le_rfl

/-- **A stored result is never recovered whole**, as its envelope has the next offset behind the
whole text, and the envelope says truly that there is a record exactly if the record fits. -/
theorem not_recovered (args : Map) (base : ℕ → Map) (hnew : outputs.get outputId = none)
    (hlarge : inlineLimit toolName args < (resultText value).length)
    (hsha : Digest.sha256 value.reread.text = Digest.sha256 value.text →
      value.reread.text = value.text) :
    ∃ envelope store,
      boundedSearchToolResult outputs toolName outputId now value args = (.paged envelope, store) ∧
      ¬ Recovered store outputId base envelope value ∧
      ((envelope.resultMaterialized = true → Stored store outputId value) ↔
        (outputRecord toolName outputId now (inlineLimit toolName args) value).text.utf8ByteSize
          + 1 ≤ outputMaxBytes) := by
  refine ⟨_, _, if_neg (not_le.mpr hlarge), ?_, ?_⟩
  · exact not_recovered_envelope hnew hsha ((inlineCharLimit_le toolName args).trans_lt hlarge)
  · exact Iff.trans ⟨fun hstored => hstored rfl, fun hstored _ => hstored⟩ (stored_iff hnew)

/-- A result with a text of some length. -/
def resultOf (n : ℕ) : Value :=
  .object [("status", .string "ok"), ("text", .string (String.ofList (List.replicate n 'a')))]

omit [FloatRead] [Digest] in
lemma lt_length_resultOf (n : ℕ) : n < (resultText (resultOf n)).length := by
  have hletters : ∀ n, ((List.replicate n 'a').flatMap escape).length = n := by
    intro n
    induction n with
    | zero => rfl
    | succ n ih =>
        have hescape : (escape 'a').length = 1 := by decide
        rw [List.replicate_succ, List.flatMap_cons, List.length_append, ih, hescape, Nat.add_comm]
  have hquoted : n < (quoted (String.ofList (List.replicate n 'a'))).length := by
    rw [quoted, String.toList_ofList, List.length_cons, List.length_append, hletters]
    omega
  have hfield : (Value.string (String.ofList (List.replicate n 'a'))).chars.length ≤
      (resultOf n).chars.length :=
    length_chars_le (List.mem_cons_of_mem _ List.mem_cons_self)
  rw [resultText_eq]
  exact hquoted.trans_le hfield

section

omit [FloatText] [FloatRead] [Digest]

/-- A long result is not recovered. -/
theorem not_recovered_resultOf :
    letI := FloatText.fields
    letI : FloatRead := ⟨id⟩
    letI : Digest := ⟨id⟩
    ∃ envelope store,
      boundedSearchToolResult [] "fs_grep" "o_1_1" "2026-01-01T00:00:00Z"
        (resultOf inlineCharLimit) [] = (.paged envelope, store) ∧
      ¬ Recovered store "o_1_1" (fun _ => []) envelope (resultOf inlineCharLimit) ∧
      ((envelope.resultMaterialized = true → Stored store "o_1_1" (resultOf inlineCharLimit)) ↔
        (outputRecord "fs_grep" "o_1_1" "2026-01-01T00:00:00Z" (inlineLimit "fs_grep" [])
          (resultOf inlineCharLimit)).text.utf8ByteSize + 1 ≤ outputMaxBytes) :=
  letI := FloatText.fields
  letI : FloatRead := ⟨id⟩
  letI : Digest := ⟨id⟩
  not_recovered [] (fun _ => []) rfl (lt_length_resultOf inlineCharLimit) fun h => h

/-- No page behind the envelope of a long result brings the rest of it. -/
theorem resultOf_lost :
    ¬ ∀ [FloatText] [FloatRead] [Digest] (value : Value) (toolName now : String) (args : Map)
      (base : ℕ → Map), inlineLimit toolName args < (resultText value).length →
      ∃ outputId envelope store,
        boundedSearchToolResult [] toolName outputId now value args = (.paged envelope, store) ∧
        Recovered store outputId base envelope value := by
  intro h
  let _ := FloatText.fields
  let _ : FloatRead := ⟨id⟩
  let _ : Digest := ⟨id⟩
  have hlong := lt_length_resultOf inlineCharLimit
  obtain ⟨outputId, envelope, store, hanswer, hrecovered⟩ :=
    h (resultOf inlineCharLimit) "fs_grep" "2026-01-01T00:00:00Z" [] (fun _ => []) hlong
  rw [boundedSearchToolResult, show inlineLimit "fs_grep" [] = inlineCharLimit from rfl,
    if_neg (not_le.mpr hlong)] at hanswer
  cases hanswer
  exact not_recovered_envelope rfl (fun h => h) hlong hrecovered

end

end SearchResults

end Filesystem

end McpSurfaces
