import McpSurfaces.Json.Text

/-!
The canonical text of a JSON value: the compact text with the keys of every object in order.

* `Value.canonicalize` sorts the keys; `get_canonicalize`: it leaves what the fields hold.
* **`canonicalText_injective`**: the canonical text determines the value up to the order of
  the keys.
-/

namespace McpSurfaces

namespace Value

mutual

/-- `canonicalize`: the keys of every object in order. -/
def canonicalize : Value → Value
  | .null => .null
  | .bool b => .bool b
  | .number n => .number n
  | .string s => .string s
  | .array items => .array (canonicalizeList items)
  | .object fields => .object (canonicalizeFields fields)

def canonicalizeList : List Value → List Value
  | [] => []
  | v :: rest => v.canonicalize :: canonicalizeList rest

def canonicalizeFields : List (String × Value) → Map
  | [] => []
  | (k, v) :: rest =>
      (canonicalizeFields rest).orderedInsert (fun a b => a.1 ≤ b.1) (k, v.canonicalize)

end

/-- The fields are sorted, their values in canonical form. -/
lemma canonicalizeFields_perm (fields : List (String × Value)) :
    (canonicalizeFields fields).Perm (fields.map fun e => (e.1, e.2.canonicalize)) := by
  induction fields with
  | nil => exact .refl _
  | cons e rest ih =>
      rw [canonicalizeFields, List.map_cons]
      exact (List.perm_orderedInsert _ _ _).trans (ih.cons _)

/-- What a field holds stays, in canonical form. -/
lemma get_canonicalize {fields : Map} (hnodup : (OrderedMap.keys fields).Nodup) (key : String) :
    (canonicalize (.object fields)).get key = (fields.get key).map canonicalize := by
  have hkeys : (OrderedMap.keys (fields.map fun e => (e.1, e.2.canonicalize))).Nodup := by
    simpa [OrderedMap.keys, Function.comp_def] using hnodup
  have hmap : OrderedMap.get (fields.map fun e => (e.1, e.2.canonicalize)) key =
      (OrderedMap.get fields key).map canonicalize := by
    clear hkeys hnodup
    induction fields with
    | nil => rfl
    | cons e rest ih =>
        rw [List.map_cons, OrderedMap.get_cons, OrderedMap.get_cons, ih]
        split_ifs <;> rfl
  rw [canonicalize, Value.get, ← hmap]
  exact (OrderedMap.get_eq_of_perm hkeys (canonicalizeFields_perm fields).symm key).symm

/-- Fields with the same values in canonical form have one canonical form. -/
lemma canonicalizeFields_congr {fields others : List (String × Value)}
    (h : fields.map (fun e => (e.1, e.2.canonicalize)) =
      others.map fun e => (e.1, e.2.canonicalize)) :
    canonicalizeFields fields = canonicalizeFields others := by
  induction fields generalizing others with
  | nil => rw [List.map_eq_nil_iff.mp h.symm]
  | cons e rest ih =>
      obtain ⟨e', rest', rfl, he, hrest⟩ := List.map_eq_cons_iff.mp h.symm
      obtain ⟨hkey, hvalue⟩ := Prod.mk.inj he
      rw [canonicalizeFields, canonicalizeFields, ih hrest.symm, hkey, hvalue]

section Text

variable [FloatText]

/-- `canonical_json`. -/
def canonicalText (v : Value) : String := v.canonicalize.text

/-- **The canonical text determines the value up to the order of the keys.** -/
theorem canonicalText_injective (hf : FloatText.Lawful) {v w : Value}
    (h : v.canonicalText = w.canonicalText) : v.canonicalize = w.canonicalize :=
  text_injective hf h

/-- Objects with one canonical text hold the same texts. -/
lemma get_string_of_canonicalText (hf : FloatText.Lawful) {fields others : Map}
    (hfields : (OrderedMap.keys fields).Nodup) (hothers : (OrderedMap.keys others).Nodup)
    (h : canonicalText (.object fields) = canonicalText (.object others)) (key : String)
    {s t : String} (hs : fields.get key = some (.string s)) (ht : others.get key = some (.string t)) : s = t := by
  have hsame := congrArg (fun v => v.get key) (canonicalText_injective hf h)
  rw [get_canonicalize hfields, get_canonicalize hothers, hs, ht] at hsame
  simpa [canonicalize] using hsame

end Text

end Value

end McpSurfaces
