import McpSurfaces.Foundation.Str
import McpSurfaces.Json.Text

/-!
The cursors that callers carry from page to page: `encode_cursor_token` and
`decode_cursor_token`.

* A token is the compact text of a JSON object in hexadecimal behind `v1.`; the parser that
  reads it back is a parameter, `JsonRead`.
* `decode_encode`: a token of scalar fields is decoded to these fields, when the shape is
  that of a query cursor, and refused otherwise.
-/

namespace McpSurfaces

namespace LedgerDomain

/-- `serde_json::from_slice`. -/
class JsonRead where
  parse : List UInt8 → Option Value

/-- The bytes of a text. -/
def utf8 (s : String) : List UInt8 := s.toByteArray.data.toList

/-- Reading the compact text of an object of scalars gives the object back. -/
def JsonRead.Lawful [FloatText] [JsonRead] : Prop :=
  ∀ fields : Map, (OrderedMap.keys fields).Nodup → (∀ e ∈ fields, e.2.Scalar) →
    JsonRead.parse (utf8 (Value.object fields).text) = some (.object fields)

open Classical in
/-- The reader of the texts of objects of scalars. -/
@[reducible] noncomputable def JsonRead.inverse [FloatText] : JsonRead where
  parse bytes :=
    if h : ∃ fields : Map, (∀ e ∈ fields, e.2.Scalar) ∧ utf8 (Value.object fields).text = bytes
    then some (.object h.choose) else none

lemma utf8_injective {s t : String} (h : utf8 s = utf8 t) : s = t :=
  String.toByteArray_inj.mp (ByteArray.ext (Array.toList_inj.mp h))

lemma JsonRead.inverse_lawful [FloatText] : @JsonRead.Lawful _ JsonRead.inverse := by
  intro fields _ hscalar
  have h : ∃ fields' : Map, (∀ e ∈ fields', e.2.Scalar) ∧
      utf8 (Value.object fields').text = utf8 (Value.object fields).text :=
    ⟨fields, hscalar, rfl⟩
  have hsame := Value.scalar_object_text_injective h.choose_spec.1 hscalar
    (utf8_injective h.choose_spec.2)
  exact (dif_pos h).trans (congrArg (fun m => some (Value.object m)) hsame)

/-- Why a token is not decoded: `Err(())`, or a slice that splits a character. -/
inductive TokenError where
  | malformed
  | panic
deriving DecidableEq

/-! ### Hexadecimal -/

/-- `{byte:02x}`. -/
def hexPair (byte : UInt8) : List Char := [hexDigit (byte.toNat / 16), hexDigit (byte.toNat % 16)]

/-- A digit in base sixteen. -/
def hexRadix (c : Char) : Option ℕ :=
  if c.isDigit then some (c.toNat - '0'.toNat)
  else if 'a' ≤ c ∧ c ≤ 'f' then some (c.toNat - 'a'.toNat + 10)
  else if 'A' ≤ c ∧ c ≤ 'F' then some (c.toNat - 'A'.toNat + 10)
  else none

/-- `u8::from_str_radix` on two characters, the first of which may be a sign. -/
def byteFromRadix (c d : Char) : Option UInt8 :=
  if c = '+' then (hexRadix d).map UInt8.ofNat
  else do return UInt8.ofNat (16 * (← hexRadix c) + (← hexRadix d))

/-- The loop of the decoder, two bytes at a time. A character of two bytes is no digit, and a
slice that ends in the middle of a character panics. -/
def hexBytes : List Char → Except TokenError (List UInt8)
  | [] => .ok []
  | [c] => if c.utf8Size = 2 then .error .malformed else .error .panic
  | c :: d :: rest =>
      if c.utf8Size = 2 then .error .malformed
      else if c.utf8Size ≠ 1 ∨ d.utf8Size ≠ 1 then .error .panic
      else
        match byteFromRadix c d with
        | none => .error .malformed
        | some byte => do return byte :: (← hexBytes rest)

private lemma hexRadix_hexDigit : ∀ n < 16,
    hexRadix (hexDigit n) = some n ∧ (hexDigit n).utf8Size = 1 ∧ hexDigit n ≠ '+' := by
  decide

/-- **Hexadecimal is read back.** -/
lemma hexBytes_flatMap_hexPair (bytes : List UInt8) :
    hexBytes (bytes.flatMap hexPair) = .ok bytes := by
  induction bytes with
  | nil => rfl
  | cons byte rest ih =>
      have hbound : byte.toNat < 256 := byte.toNat_lt
      obtain ⟨hhigh, hhighSize, hsign⟩ := hexRadix_hexDigit (byte.toNat / 16) (by omega)
      obtain ⟨hlow, hlowSize, -⟩ := hexRadix_hexDigit (byte.toNat % 16) (by omega)
      have hbyte : byteFromRadix (hexDigit (byte.toNat / 16)) (hexDigit (byte.toNat % 16)) =
          some byte := by
        rw [byteFromRadix, if_neg hsign, hhigh, hlow]
        have hsum : 16 * (byte.toNat / 16) + byte.toNat % 16 = byte.toNat := by omega
        simp only [Option.bind_eq_bind, Option.bind_some, Option.pure_def, hsum,
          UInt8.ofNat_toNat]
      rw [List.flatMap_cons, hexPair, List.cons_append, List.cons_append, List.nil_append,
        hexBytes, if_neg (by rw [hhighSize]; decide),
        if_neg (by rw [hhighSize, hlowSize]; decide), hbyte, ih]
      rfl

/-- Two digits take two bytes. -/
lemma sum_utf8Size_hexPair (bytes : List UInt8) :
    ((bytes.flatMap hexPair).map Char.utf8Size).sum % 2 = 0 := by
  induction bytes with
  | nil => rfl
  | cons byte rest ih =>
      have hbound : byte.toNat < 256 := byte.toNat_lt
      obtain ⟨-, hhigh, -⟩ := hexRadix_hexDigit (byte.toNat / 16) (by omega)
      obtain ⟨-, hlow, -⟩ := hexRadix_hexDigit (byte.toNat % 16) (by omega)
      rw [List.flatMap_cons, List.map_append, List.sum_append, hexPair, List.map_cons,
        List.map_singleton, List.sum_cons, List.sum_singleton, hhigh, hlow]
      omega

/-! ### Tokens -/

/-- `encode_cursor_token`. -/
def encodeCursorToken [FloatText] (v : Value) : String :=
  "v1." ++ String.ofList ((utf8 v.text).flatMap hexPair)

/-- The shape of a query cursor. -/
def isQueryCursor (expectedSchema : String) (decoded : Value) : Bool :=
  decoded.asObject.isSome &&
    decide ((decoded.get "schema").bind Value.asStr = some expectedSchema) &&
    ((decoded.get "head").bind Value.asStr).isSome &&
    ((decoded.get "values").bind Value.asObject).isSome

/-- `decode_cursor_token`: whatever is no text is taken as it is. -/
def decodeCursorToken [JsonRead] (value : Value) (expectedSchema : String) :
    Except TokenError Value :=
  match value.asStr with
  | none => .ok value
  | some token =>
      if Str.startsWith token "v1." then
        let hex := token.toList.drop 3
        if hex = [] ∨ (hex.map Char.utf8Size).sum % 2 ≠ 0 then .error .malformed
        else do
          let bytes ← hexBytes hex
          match JsonRead.parse bytes with
          | none => .error .malformed
          | some decoded =>
              if isQueryCursor expectedSchema decoded then .ok decoded else .error .malformed
      else .error .malformed

/-- **A token of scalar fields is decoded when it has the shape of a query cursor**, and
refused otherwise. -/
lemma decode_encode [FloatText] [JsonRead] (hread : JsonRead.Lawful) {fields : Map}
    (hkeys : (OrderedMap.keys fields).Nodup) (hscalar : ∀ e ∈ fields, e.2.Scalar)
    (expectedSchema : String) :
    decodeCursorToken (.string (encodeCursorToken (.object fields))) expectedSchema =
      if isQueryCursor expectedSchema (.object fields) then .ok (.object fields)
      else .error .malformed := by
  have hchars : (encodeCursorToken (.object fields)).toList =
      "v1.".toList ++ (utf8 (Value.object fields).text).flatMap hexPair := by
    simp [encodeCursorToken]
  have hdrop : (encodeCursorToken (.object fields)).toList.drop 3 =
      (utf8 (Value.object fields).text).flatMap hexPair := by
    rw [hchars]
    rfl
  have hne : (utf8 (Value.object fields).text).flatMap hexPair ≠ [] := by
    intro hempty
    have hbytes : utf8 (Value.object fields).text = utf8 "" := by
      cases hb : utf8 (Value.object fields).text with
      | nil => rfl
      | cons byte rest => rw [hb] at hempty; cases hempty
    have htext := congrArg String.toList (utf8_injective hbytes)
    rw [Value.text_eq_ofList, String.toList_ofList] at htext
    cases fields <;> cases htext
  rw [decodeCursorToken]
  simp only [Value.asStr]
  rw [if_pos (Str.startsWith_iff.mpr ⟨_, hchars⟩), hdrop,
    if_neg (by simpa [sum_utf8Size_hexPair] using hne), hexBytes_flatMap_hexPair]
  simp only [bind, Except.bind, hread fields hkeys hscalar]

end LedgerDomain

end McpSurfaces
