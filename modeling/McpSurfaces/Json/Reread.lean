import McpSurfaces.Json.Value

/-!
What a JSON value is after it was written to a file or a column and read again. Texts,
integers and the order of keys are kept; a binary64 is printed and parsed, and the parser
of `serde_json` may miss it by a unit in the last place, as `float_roundtrip` is off.

Reading commutes with the accessors (`get_reread`, `asStr_reread`, `asArray_reread`),
and gives a value without a binary64 back (`reread_of_integral`).
-/

namespace McpSurfaces

/-- The binary64 that reading the text of a binary64 gives. -/
class FloatRead where
  read : F64 → F64

variable [FloatRead]

namespace Value

def Number.reread : Number → Number
  | .float x => .float (FloatRead.read x)
  | n => n

mutual

/-- The value that reading the text of a value gives. -/
def reread : Value → Value
  | .null => .null
  | .bool b => .bool b
  | .number n => .number (Number.reread n)
  | .string s => .string s
  | .array items => .array (rereadList items)
  | .object fields => .object (rereadFields fields)

def rereadList : List Value → List Value
  | [] => []
  | v :: rest => v.reread :: rereadList rest

def rereadFields : List (String × Value) → List (String × Value)
  | [] => []
  | (key, v) :: rest => (key, v.reread) :: rereadFields rest

end

lemma rereadList_eq (vs : List Value) : rereadList vs = vs.map reread := by
  induction vs with
  | nil => rfl
  | cons v rest ih => rw [rereadList, ih, List.map_cons]

lemma rereadFields_eq (fields : Map) : rereadFields fields = fields.map fun e => (e.1, e.2.reread) := by
  induction fields with
  | nil => rfl
  | cons e rest ih => rw [rereadFields, ih, List.map_cons]

@[simp] lemma asStr_reread (v : Value) : v.reread.asStr = v.asStr := by
  cases v <;> rfl

lemma asArray_reread (v : Value) : v.reread.asArray = v.asArray.map (List.map reread) := by
  cases v with
  | array items => rw [reread, rereadList_eq]; rfl
  | _ => rfl

lemma reread_eq_object {v : Value} {fields : Map} (h : v.reread = .object fields) :
    ∃ written, v = .object written ∧ fields = written.map fun e => (e.1, e.2.reread) := by
  cases v with
  | object written =>
      rw [reread, Value.object.injEq] at h
      exact ⟨written, rfl, by rw [← h, rereadFields_eq]⟩
  | _ => cases h

lemma get_map_reread (fields : Map) (key : String) :
    OrderedMap.get (fields.map fun e => (e.1, e.2.reread)) key =
      (OrderedMap.get fields key).map reread := by
  induction fields with
  | nil => rfl
  | cons e rest ih =>
      rw [List.map_cons, OrderedMap.get_cons, OrderedMap.get_cons, ih]
      split_ifs <;> rfl

/-- Reading a field commutes with reading the whole value. -/
lemma get_reread (v : Value) (key : String) : v.reread.get key = (v.get key).map reread := by
  cases v with
  | object fields => rw [reread, rereadFields_eq]; exact get_map_reread fields key
  | _ => rfl

/-- The text under a key is read as it was written. -/
lemma get_asStr_reread (v : Value) (key : String) :
    (v.reread.get key).bind asStr = (v.get key).bind asStr := by
  rw [get_reread]
  cases v.get key <;> simp

/-! ### Values without a binary64 -/

mutual

/-- Whether all numbers in a value are integers. -/
def integral : Value → Bool
  | .number n => decide n.IsInteger
  | .array items => integralList items
  | .object fields => integralFields fields
  | _ => true

def integralList : List Value → Bool
  | [] => true
  | v :: rest => v.integral && integralList rest

def integralFields : List (String × Value) → Bool
  | [] => true
  | (_, v) :: rest => v.integral && integralFields rest

end

mutual

/-- Without a binary64 a value is read as it was written. -/
lemma reread_of_integral : ∀ {v : Value}, v.integral → v.reread = v
  | .null, _ => rfl
  | .bool _, _ => rfl
  | .string _, _ => rfl
  | .number n, h => by
      cases n with
      | float x =>
          rw [integral, decide_eq_true_eq] at h
          exact h.elim
      | _ => rfl
  | .array _, h => congrArg Value.array (rereadList_of_integral h)
  | .object _, h => congrArg Value.object (rereadFields_of_integral h)

private lemma rereadList_of_integral : ∀ {vs : List Value}, integralList vs → rereadList vs = vs
  | [], _ => rfl
  | v :: rest, h => by
      rw [integralList, Bool.and_eq_true] at h
      rw [rereadList, reread_of_integral h.1, rereadList_of_integral h.2]

private lemma rereadFields_of_integral :
    ∀ {fields : List (String × Value)}, integralFields fields → rereadFields fields = fields
  | [], _ => rfl
  | (_, v) :: rest, h => by
      rw [integralFields, Bool.and_eq_true] at h
      rw [rereadFields, reread_of_integral h.1, rereadFields_of_integral h.2]

end

omit [FloatRead] in
/-- A field more keeps an object integral. -/
lemma integral_append {fields : Map} {key : String} {v : Value}
    (h : (Value.object fields).integral) (hv : v.integral) :
    (Value.object (fields ++ [(key, v)])).integral := by
  rw [integral] at h ⊢
  induction fields with
  | nil => simpa [integralFields] using hv
  | cons e rest ih =>
      obtain ⟨k, w⟩ := e
      rw [integralFields, Bool.and_eq_true] at h
      rw [List.cons_append, integralFields, Bool.and_eq_true]
      exact ⟨h.1, ih h.2⟩

end Value

end McpSurfaces
