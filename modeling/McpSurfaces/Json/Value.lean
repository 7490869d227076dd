import McpSurfaces.Foundation.OrderedMap

/-!
JSON values as `serde_json` holds them with `preserve_order`: the data of datoms,
queries, operations and events.

* `Number` keeps the three representations of `serde_json` apart: unsigned,
  negative and binary64. `Number.asF64` is the value of a number as a binary64,
  integers rounded to nearest even.
* `Value.eqv` is the `==` of `serde_json`: objects are compared without regard to
  the order of their keys and floats as numbers, so that it is coarser than `=`
  (and than equality of the serialized text).
* `Value.Scalar` are the values on which `==` is equality (`eqv_iff_of_scalar`).
-/

namespace McpSurfaces

/-! ### Numbers -/

/-- A finite binary64: the exponent field `2047` of infinities and NaNs is left
out, as JSON has neither. -/
structure F64 where
  sign : Bool
  exponent : Fin 2047
  fraction : Fin (2 ^ 52)
deriving DecidableEq, Repr

namespace F64

/-- The value in units of `2 ^ (-1074)`, the smallest binary64. -/
def scaled (x : F64) : ℤ :=
  let magnitude : ℕ :=
    if x.exponent.val = 0 then x.fraction.val
    else (2 ^ 52 + x.fraction.val) * 2 ^ (x.exponent.val - 1)
  if x.sign then -(magnitude : ℤ) else magnitude

/-- Equality as numbers: the two zeros are equal. -/
def eqv (x y : F64) : Bool := x.scaled == y.scaled

end F64

/-- The nearest natural number with 53 significant bits, ties to even. -/
def roundToF64 (n : ℕ) : ℕ :=
  if n < 2 ^ 53 then n
  else
    let unit := 2 ^ (Nat.log2 n - 52)
    let quotient := n / unit
    let rest := 2 * (n % unit)
    if unit < rest ∨ (rest = unit ∧ quotient % 2 = 1) then (quotient + 1) * unit
    else quotient * unit

/-- A JSON number: `posInt` for `u64`, `negInt n` for the negative `i64`
`-(n + 1)`, `float` for the rest. -/
inductive Number where
  | posInt (n : ℕ) (h : n < 2 ^ 64)
  | negInt (n : ℕ) (h : n < 2 ^ 63)
  | float (x : F64)
deriving DecidableEq, Repr

namespace Number

/-- `Number::as_f64`, in the units of `F64.scaled`. -/
def asF64 : Number → ℤ
  | posInt n _ => (roundToF64 n * 2 ^ 1074 : ℕ)
  | negInt n _ => -((roundToF64 (n + 1) * 2 ^ 1074 : ℕ) : ℤ)
  | float x => x.scaled

/-- `Number::as_u64`. -/
def asU64 : Number → Option ℕ
  | posInt n _ => some n
  | _ => none

/-- `Number::as_i64`: the integers from `-2 ^ 63` to `2 ^ 63 - 1`. -/
def asI64 : Number → Option ℤ
  | posInt n _ => if n < 2 ^ 63 then some n else none
  | negInt n _ => some (-(n + 1 : ℕ))
  | float _ => none

/-- `==`: numbers of different representation are different. -/
def eqv : Number → Number → Bool
  | posInt m _, posInt n _ => m == n
  | negInt m _, negInt n _ => m == n
  | float x, float y => x.eqv y
  | _, _ => false

/-- Whether the number is one of the two integer representations. -/
def IsInteger : Number → Prop
  | float _ => False
  | _ => True

instance : DecidablePred IsInteger := fun n => by
  cases n <;> unfold IsInteger <;> infer_instance

lemma eqv_iff_of_isInteger {m n : Number} (hm : m.IsInteger) : m.eqv n ↔ m = n := by
  cases m <;> cases n <;> simp_all [eqv, IsInteger]

lemma eqv_refl (m : Number) : m.eqv m := by
  cases m <;> simp [eqv, F64.eqv]

lemma eqv_symm {m n : Number} (h : m.eqv n) : n.eqv m := by
  cases m <;> cases n <;> simp_all [eqv, F64.eqv]

end Number

/-! ### Values -/

/-- A JSON value. -/
inductive Value where
  | null
  | bool (b : Bool)
  | number (n : Number)
  | string (s : String)
  | array (items : List Value)
  | object (fields : List (String × Value))
deriving Repr

/-- A JSON object: its fields in insertion order. -/
abbrev Map := OrderedMap String Value

namespace Value

/-- The induction principle of the nested inductive: a property of all values from
its inheritance through arrays and objects. -/
@[elab_as_elim]
theorem ind {P : Value → Prop} (null : P .null) (bool : ∀ b, P (.bool b))
    (number : ∀ n, P (.number n)) (string : ∀ s, P (.string s))
    (array : ∀ items : List Value, (∀ v ∈ items, P v) → P (.array items))
    (object : ∀ fields : Map, (∀ e ∈ fields, P e.2) → P (.object fields))
    (v : Value) : P v :=
  @Value.rec P (fun items => ∀ v ∈ items, P v) (fun fields => ∀ e ∈ fields, P e.2)
    (fun e => P e.2)
    null bool number string array object
    (fun _ hv => absurd hv (by simp))
    (fun _ _ head tail _ hv => by
      rcases List.mem_cons.mp hv with rfl | hv
      · exact head
      · exact tail _ hv)
    (fun _ he => absurd he (by simp))
    (fun _ _ head tail _ he => by
      rcases List.mem_cons.mp he with rfl | he
      · exact head
      · exact tail _ he)
    (fun _ _ h => h) v

mutual

/-- Syntactic equality is decidable. -/
def decEq : (v w : Value) → Decidable (v = w)
  | .null, .null => isTrue rfl
  | .bool a, .bool b => decidable_of_iff (a = b) (by simp)
  | .number a, .number b => decidable_of_iff (a = b) (by simp)
  | .string a, .string b => decidable_of_iff (a = b) (by simp)
  | .array a, .array b => @decidable_of_iff _ (a = b) (by simp) (decEqList a b)
  | .object a, .object b => @decidable_of_iff _ (a = b) (by simp) (decEqFields a b)
  | .null, .bool _ | .null, .number _ | .null, .string _ | .null, .array _ | .null, .object _
  | .bool _, .null | .bool _, .number _ | .bool _, .string _ | .bool _, .array _
  | .bool _, .object _ | .number _, .null | .number _, .bool _ | .number _, .string _
  | .number _, .array _ | .number _, .object _ | .string _, .null | .string _, .bool _
  | .string _, .number _ | .string _, .array _ | .string _, .object _ | .array _, .null
  | .array _, .bool _ | .array _, .number _ | .array _, .string _ | .array _, .object _
  | .object _, .null | .object _, .bool _ | .object _, .number _ | .object _, .string _
  | .object _, .array _ => isFalse (by simp)

def decEqList : (vs ws : List Value) → Decidable (vs = ws)
  | [], [] => isTrue rfl
  | [], _ :: _ => isFalse (by simp)
  | _ :: _, [] => isFalse (by simp)
  | v :: vs, w :: ws =>
      @decidable_of_iff _ (v = w ∧ vs = ws) (by simp)
        (@instDecidableAnd _ _ (decEq v w) (decEqList vs ws))

def decEqFields : (as bs : List (String × Value)) → Decidable (as = bs)
  | [], [] => isTrue rfl
  | [], _ :: _ => isFalse (by simp)
  | _ :: _, [] => isFalse (by simp)
  | (k, v) :: as, (l, w) :: bs =>
      @decidable_of_iff _ (k = l ∧ v = w ∧ as = bs) (by simp [and_assoc])
        (@instDecidableAnd _ _ (instDecidableEqString k l)
          (@instDecidableAnd _ _ (decEq v w) (decEqFields as bs)))

end

instance : DecidableEq Value := decEq

/-! ### Accessors -/

/-- `Value::as_str`. -/
def asStr : Value → Option String
  | .string s => some s
  | _ => none

/-- `Value::as_object`. -/
def asObject : Value → Option Map
  | .object fields => some fields
  | _ => none

/-- `Value::as_array`. -/
def asArray : Value → Option (List Value)
  | .array items => some items
  | _ => none

/-- `Value::as_u64`. -/
def asU64 : Value → Option ℕ
  | .number n => n.asU64
  | _ => none

/-- `Value::as_i64`. -/
def asI64 : Value → Option ℤ
  | .number n => n.asI64
  | _ => none

/-- `Value::as_bool`. -/
def asBool : Value → Option Bool
  | .bool b => some b
  | _ => none

/-- `Value::get` with a key: nothing outside an object. -/
def get (v : Value) (key : String) : Option Value :=
  match v with
  | .object fields => OrderedMap.get fields key
  | _ => none

/-- The number of a count or a limit, a `usize`. -/
def ofNat (n : ℕ) : Value := .number (.posInt (n % 2 ^ 64) (Nat.mod_lt _ (by norm_num)))

/-- The number of an `i64`. -/
def ofInt : ℤ → Value
  | .ofNat n => ofNat n
  | .negSucc n => .number (.negInt (n % 2 ^ 63) (Nat.mod_lt _ (by norm_num)))

lemma asStr_eq_some {v : Value} {s : String} : v.asStr = some s ↔ v = .string s := by
  cases v <;> simp [asStr]

lemma asObject_eq_some {v : Value} {m : Map} : v.asObject = some m ↔ v = .object m := by
  cases v <;> simp [asObject]

lemma asArray_eq_some {v : Value} {vs : List Value} : v.asArray = some vs ↔ v = .array vs := by
  cases v <;> simp [asArray]

lemma asU64_ofNat {n : ℕ} (h : n < 2 ^ 64) : (ofNat n).asU64 = some n :=
  congrArg some (Nat.mod_eq_of_lt h)

lemma asU64_lt {v : Value} {n : ℕ} (h : v.asU64 = some n) : n < 2 ^ 64 := by
  obtain ⟨k, rfl⟩ : ∃ k, v = .number k := by
    cases v <;> simp [asU64] at h
    exact ⟨_, rfl⟩
  cases k with
  | posInt m hm =>
      cases h
      exact hm
  | _ => cases h

@[simp] lemma asStr_string (s : String) : asStr (.string s) = some s := rfl

/-! ### Equality of `serde_json` -/

mutual

/-- `==` on values. -/
def eqv : Value → Value → Bool
  | .null, .null => true
  | .bool a, .bool b => a == b
  | .number a, .number b => a.eqv b
  | .string a, .string b => a == b
  | .array a, .array b => eqvList a b
  | .object a, .object b => a.length == b.length && eqvFields a b
  | _, _ => false

/-- `==` on arrays, item by item. -/
def eqvList : List Value → List Value → Bool
  | [], [] => true
  | v :: vs, w :: ws => v.eqv w && eqvList vs ws
  | _, _ => false

/-- Whether every field has an equal value under the same key of the other
object. -/
def eqvFields : List (String × Value) → Map → Bool
  | [], _ => true
  | (k, v) :: rest, other =>
      (match other.get k with
        | some w => v.eqv w
        | none => false) && eqvFields rest other

end

/-- The kinds of values whose `==` is equality: everything but floats, arrays and
objects. -/
def Scalar : Value → Prop
  | .null | .bool _ | .string _ => True
  | .number n => n.IsInteger
  | .array _ | .object _ => False

instance : DecidablePred Scalar := fun v => by
  cases v <;> unfold Scalar <;> infer_instance

@[simp] lemma scalar_string (s : String) : Scalar (.string s) := trivial

/-- On scalars `==` is equality. -/
lemma eqv_iff_of_scalar {v w : Value} (hv : v.Scalar) : v.eqv w ↔ v = w := by
  cases v <;> cases w <;> simp_all [eqv, Scalar, Number.eqv_iff_of_isInteger]

@[simp] lemma string_eqv {s : String} {w : Value} : eqv (.string s) w ↔ w = .string s := by
  rw [eqv_iff_of_scalar (scalar_string s), eq_comm]

@[simp] lemma eqv_string {s : String} {v : Value} : eqv v (.string s) ↔ v = .string s := by
  cases v <;> simp [eqv]

/-! ### Values with distinct keys -/

mutual

/-- The keys of every object in the value are distinct, as they are in `serde_json`. -/
def Distinct : Value → Prop
  | .null | .bool _ | .number _ | .string _ => True
  | .array items => DistinctList items
  | .object fields => (OrderedMap.keys fields).Nodup ∧ DistinctFields fields

def DistinctList : List Value → Prop
  | [] => True
  | v :: rest => v.Distinct ∧ DistinctList rest

def DistinctFields : List (String × Value) → Prop
  | [] => True
  | (_, v) :: rest => v.Distinct ∧ DistinctFields rest

end

lemma eqvFields_of_get {fields : List (String × Value)} {other : Map}
    (h : ∀ k v, (k, v) ∈ fields → ∃ w, other.get k = some w ∧ v.eqv w) :
    eqvFields fields other := by
  induction fields with
  | nil => rfl
  | cons e rest ih =>
      obtain ⟨k, v⟩ := e
      obtain ⟨w, hw, hvw⟩ := h k v List.mem_cons_self
      rw [eqvFields, hw, Bool.and_eq_true]
      exact ⟨hvw, ih fun k v hmem => h k v (List.mem_cons_of_mem _ hmem)⟩

mutual

/-- `==` is reflexive on values with distinct keys. -/
lemma eqv_refl : ∀ {v : Value}, v.Distinct → v.eqv v
  | .null, _ => rfl
  | .bool _, _ => by simp [eqv]
  | .number n, _ => n.eqv_refl
  | .string _, _ => by simp
  | .array _, h => eqvList_refl h
  | .object fields, h => by
      rw [eqv, Bool.and_eq_true]
      refine ⟨by simp, eqvFields_of_get fun k v hmem => ?_⟩
      exact ⟨v, OrderedMap.get_of_mem h.1 hmem, eqv_refl_of_mem h.2 hmem⟩

lemma eqvList_refl : ∀ {vs : List Value}, DistinctList vs → eqvList vs vs
  | [], _ => rfl
  | _ :: _, h => by
      rw [eqvList, Bool.and_eq_true]
      exact ⟨eqv_refl h.1, eqvList_refl h.2⟩

lemma eqv_refl_of_mem : ∀ {fields : List (String × Value)}, DistinctFields fields →
    ∀ {k : String} {v : Value}, (k, v) ∈ fields → v.eqv v
  | (_, _) :: _, h, _, _, hmem => by
      rcases List.mem_cons.mp hmem with heq | hmem
      · cases heq
        exact eqv_refl h.1
      · exact eqv_refl_of_mem h.2 hmem

end

/-- Objects with the same fields, in some order. -/
def SameObject (v w : Value) : Prop :=
  ∃ fields fields' : Map, v = .object fields ∧ w = .object fields' ∧ fields.Perm fields'

/-- Objects with the same fields are equal for `serde_json`. -/
lemma SameObject.eqv {v w : Value} (h : v.SameObject w) (hv : v.Distinct) : v.eqv w := by
  obtain ⟨fields, fields', rfl, rfl, hperm⟩ := h
  rw [Value.eqv, Bool.and_eq_true]
  refine ⟨by simp [hperm.length_eq], eqvFields_of_get fun k u hmem => ?_⟩
  refine ⟨u, ?_, eqv_refl_of_mem hv.2 hmem⟩
  rw [← OrderedMap.get_eq_of_perm hv.1 hperm]
  exact OrderedMap.get_of_mem hv.1 hmem

end Value

end McpSurfaces
