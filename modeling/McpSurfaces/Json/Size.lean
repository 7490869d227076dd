import McpSurfaces.Json.Canonical
import Mathlib.Data.String.Basic

/-!
The length in bytes of the canonical text of a JSON value, counted without the text.

* **`Value.byteLength_canonicalText`**: `Value.bytes` is that length. The order of the keys does
  not matter for it.
-/

namespace McpSurfaces

/-! ### Strings -/

/-- The bytes of an escaped character. -/
def escapedBytes (c : Char) : ℕ :=
  if c.toNat < 32 then
    if c.toNat = 8 ∨ c.toNat = 9 ∨ c.toNat = 10 ∨ c.toNat = 12 ∨ c.toNat = 13 then 2 else 6
  else if c.toNat = 34 ∨ c.toNat = 92 then 2
  else c.utf8Size

/-- The bytes of a string between quotes. -/
def quotedBytes (s : String) : ℕ := (s.toList.map escapedBytes).sum + 2

lemma utf8Len_escape (c : Char) : String.utf8Len (escape c) = escapedBytes c := by
  have hcode (d : Char) : c = d ↔ c.toNat = d.toNat :=
    ⟨congrArg _, fun h => Char.toNat_inj.mp h⟩
  have hhex : ∀ n < 16, (hexDigit n).utf8Size = 1 := by decide
  unfold escape escapedBytes
  simp only [hcode]
  change String.utf8Len (if c.toNat = 34 then _ else if c.toNat = 92 then _
    else if c.toNat = 8 then _ else if c.toNat = 9 then _ else if c.toNat = 10 then _
    else if c.toNat = 12 then _ else if c.toNat = 13 then _ else _) = _
  split_ifs <;> first
    | omega
    | rfl
    | exact Nat.zero_add _
    | simp only [String.utf8Len_cons, hhex _ (show c.toNat / 16 < 16 by omega),
        hhex _ (show c.toNat % 16 < 16 by omega)]; rfl

lemma utf8Len_quoted (s : String) : String.utf8Len (quoted s) = quotedBytes s := by
  have hescaped (cs : List Char) :
      String.utf8Len (cs.flatMap escape) = (cs.map escapedBytes).sum := by
    induction cs with
    | nil => rfl
    | cons c rest ih =>
        rw [List.flatMap_cons, String.utf8Len_append, utf8Len_escape, ih, List.map_cons,
          List.sum_cons]
  rw [quoted, String.utf8Len_cons, String.utf8Len_append, hescaped]
  rfl

namespace Value

variable [FloatText]

mutual

/-- The bytes of the compact text of a value. -/
def bytes : Value → ℕ
  | .null => 4
  | .bool true => 4
  | .bool false => 5
  | .number n => String.utf8Len n.chars
  | .string s => quotedBytes s
  | .array [] => 2
  | .array (v :: rest) => v.bytes + itemsBytes rest + 2
  | .object [] => 2
  | .object ((k, v) :: rest) => quotedBytes k + v.bytes + fieldsBytes rest + 3

/-- The bytes of the items after the first. -/
def itemsBytes : List Value → ℕ
  | [] => 0
  | v :: rest => v.bytes + itemsBytes rest + 1

/-- The bytes of the fields after the first. -/
def fieldsBytes : List (String × Value) → ℕ
  | [] => 0
  | (k, v) :: rest => quotedBytes k + v.bytes + fieldsBytes rest + 2

end

/-! ### The order of the keys -/

lemma fieldsBytes_eq_sum (fields : List (String × Value)) :
    fieldsBytes fields = (fields.map fun e => quotedBytes e.1 + e.2.bytes + 2).sum := by
  induction fields with
  | nil => rfl
  | cons e rest ih =>
      rw [fieldsBytes, ih, List.map_cons, List.sum_cons]
      omega

lemma itemsBytes_eq_sum (items : List Value) :
    itemsBytes items = (items.map fun v => v.bytes + 1).sum := by
  induction items with
  | nil => rfl
  | cons v rest ih =>
      rw [itemsBytes, ih, List.map_cons, List.sum_cons]
      omega

lemma bytes_object {fields : List (String × Value)} (h : fields ≠ []) :
    (object fields).bytes = fieldsBytes fields + 1 := by
  cases fields with
  | nil => exact absurd rfl h
  | cons e rest =>
      rw [bytes, fieldsBytes]

lemma bytes_array {items : List Value} (h : items ≠ []) :
    (array items).bytes = itemsBytes items + 1 := by
  cases items with
  | nil => exact absurd rfl h
  | cons v rest => rw [bytes, itemsBytes]

omit [FloatText] in
lemma canonicalizeList_eq_map (items : List Value) :
    canonicalizeList items = items.map canonicalize := by
  induction items with
  | nil => rfl
  | cons v rest ih => rw [canonicalizeList, ih, List.map_cons]

/-- Sorting the keys leaves the length of the text. -/
lemma bytes_canonicalize (v : Value) : v.canonicalize.bytes = v.bytes := by
  induction v using Value.ind with
  | null => rfl
  | bool b => rfl
  | number n => rfl
  | string s => rfl
  | array items ih =>
      rw [canonicalize, canonicalizeList_eq_map]
      rcases eq_or_ne items [] with rfl | hne
      · rfl
      · rw [bytes_array (by simpa using hne), bytes_array hne, itemsBytes_eq_sum, itemsBytes_eq_sum,
          List.map_map]
        congr 2
        exact List.map_congr_left fun v hv => by rw [Function.comp_apply, ih v hv]
  | object fields ih =>
      have hperm := canonicalizeFields_perm fields
      rw [canonicalize]
      rcases eq_or_ne fields [] with rfl | hne
      · rfl
      · have hne' : canonicalizeFields fields ≠ [] := fun hnil => by
          rw [hnil] at hperm
          exact hne (by simpa using hperm.nil_eq)
        rw [bytes_object hne', bytes_object hne, fieldsBytes_eq_sum, fieldsBytes_eq_sum,
          (hperm.map _).sum_nat, List.map_map]
        congr 2
        exact List.map_congr_left fun e he => by simp only [Function.comp_apply, ih e he]

/-! ### The text -/

lemma utf8Len_itemsChars {items : List Value}
    (h : ∀ v ∈ items, String.utf8Len v.chars = v.bytes) :
    String.utf8Len (itemsChars items) = itemsBytes items + 1 := by
  induction items with
  | nil => rfl
  | cons v rest ih =>
      rw [itemsChars, String.utf8Len_cons, String.utf8Len_append, h v List.mem_cons_self,
        ih fun w hw => h w (List.mem_cons_of_mem _ hw), itemsBytes]
      rfl

lemma utf8Len_fieldsChars {fields : List (String × Value)}
    (h : ∀ e ∈ fields, String.utf8Len e.2.chars = e.2.bytes) :
    String.utf8Len (fieldsChars fields) = fieldsBytes fields + 1 := by
  induction fields with
  | nil => rfl
  | cons e rest ih =>
      rw [fieldsChars, String.utf8Len_cons, String.utf8Len_append, String.utf8Len_cons,
        String.utf8Len_append, h e List.mem_cons_self,
        ih fun w hw => h w (List.mem_cons_of_mem _ hw), utf8Len_quoted, fieldsBytes]
      change _ + (_ + 1) + 1 = _
      omega

lemma utf8Len_chars (v : Value) : String.utf8Len v.chars = v.bytes := by
  induction v using Value.ind with
  | null => rfl
  | bool b => cases b <;> rfl
  | number n => rfl
  | string s => exact utf8Len_quoted s
  | array items ih =>
      cases items with
      | nil => rfl
      | cons v rest =>
          rw [chars, String.utf8Len_cons, String.utf8Len_append, ih v List.mem_cons_self,
            utf8Len_itemsChars fun w hw => ih w (List.mem_cons_of_mem _ hw), bytes]
          rfl
  | object fields ih =>
      cases fields with
      | nil => rfl
      | cons e rest =>
          rw [chars, String.utf8Len_cons, String.utf8Len_append, String.utf8Len_cons,
            String.utf8Len_append, ih e List.mem_cons_self,
            utf8Len_fieldsChars fun w hw => ih w (List.mem_cons_of_mem _ hw), utf8Len_quoted, bytes]
          change _ + (_ + 1) + 1 = _
          omega

/-- **The length of the canonical text.** -/
theorem byteLength_canonicalText (v : Value) : v.canonicalText.utf8ByteSize = v.bytes := by
  rw [canonicalText, text_eq_ofList, String.utf8ByteSize_ofList, utf8Len_chars, bytes_canonicalize]

end Value

end McpSurfaces
