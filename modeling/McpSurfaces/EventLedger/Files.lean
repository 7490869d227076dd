import McpSurfaces.EventLedger.Chain
import McpSurfaces.Foundation.Decimal
import McpSurfaces.Foundation.Str
import McpSurfaces.Json.Reread
import Mathlib.Data.String.Basic

/-!
The files of a ledger: their names, and what reading a record back gives.

* `sort_listing`: the order in which a directory is read does not matter behind the sorting.
* `rereadRecord` is what is read from the file a record was written to.
-/

namespace McpSurfaces

namespace EventLedger

/-! ### Names -/

/-- The characters of a file name. -/
def isSafeChar (c : Char) : Bool := c.isAlphanum || c == '-' || c == '_'

/-- `safe_name`: the safe characters, at most 120 of them. -/
def safeName (value : String) : String := String.ofList ((value.toList.filter isSafeChar).take 120)

/-- `idempotency_marker_name`. -/
def markerName (key : String) : String := "idem-" ++ safeName key ++ ".txt"

lemma safeName_eq_self {s : String} (hsafe : ∀ c ∈ s.toList, isSafeChar c)
    (hlen : s.length ≤ 120) : safeName s = s := by
  have hfilter : s.toList.filter isSafeChar = s.toList := List.filter_eq_self.mpr hsafe
  rw [safeName, hfilter, List.take_of_length_le (by rwa [String.length_toList]),
    String.ofList_toList]

lemma not_isWhitespace_of_isSafeChar {c : Char} (h : isSafeChar c) : ¬ Str.isWhitespace c := by
  simp only [isSafeChar, Bool.or_eq_true, beq_iff_eq] at h
  rcases h with (h | rfl) | rfl
  · exact Str.not_isWhitespace_of_isAlphanum h
  · decide
  · decide

/-- The text of a random identifier: 36 hexadecimal digits and dashes. -/
structure Uuid where
  text : String
  plain : ∀ c ∈ text.toList, c.isAlphanum ∨ c = '-'
  length_eq : text.length = 36

lemma plain_of_all {text : String}
    (h : text.toList.all (fun c => c.isAlphanum || c == '-') = true) :
    ∀ c ∈ text.toList, c.isAlphanum ∨ c = '-' := by
  simpa using h

/-- The least random identifier. -/
def Uuid.least : Uuid :=
  ⟨"00000000-0000-4000-8000-000000000000", plain_of_all (by decide), by decide⟩

lemma Uuid.isSafeChar_of_mem (uuid : Uuid) {c : Char} (h : c ∈ uuid.text.toList) :
    isSafeChar c := by
  rcases uuid.plain c h with halnum | rfl
  · simp [isSafeChar, halnum]
  · decide

/-- A number in decimal, with zeros in front up to a width of twelve. -/
def zeroPadded (n : ℕ) : String := String.ofList (Decimal.padded 12 n)

lemma isSafeChar_of_mem_zeroPadded {n : ℕ} {c : Char} (h : c ∈ (zeroPadded n).toList) :
    isSafeChar c := by
  rw [zeroPadded, String.toList_ofList] at h
  simp [isSafeChar, Char.isAlphanum, Decimal.isDigit_of_mem_padded h]

/-! ### Listings -/

/-- `Path::extension` of a file name: what is behind the last dot, unless that is in front. -/
def extension (name : String) : Option String :=
  let ext := (name.toList.reverse.takeWhile (· ≠ '.')).reverse
  if name.toList.length ≤ ext.length + 1 then none else some (String.ofList ext)

lemma extension_append_json {s : String} (hs : s ≠ "") : extension (s ++ ".json") = some "json" := by
  have hext : ((s ++ ".json").toList.reverse.takeWhile (· ≠ '.')).reverse = "json".toList := by
    rw [String.toList_append, List.reverse_append]
    rfl
  have hlength : s.toList.length ≠ 0 := fun h =>
    hs (String.toList_eq_nil_iff.mp (List.length_eq_zero_iff.mp h))
  rw [extension, hext, if_neg, String.ofList_toList]
  rw [String.toList_append, List.length_append, not_le]
  have hjson : "json".toList.length + 1 = ".json".toList.length := rfl
  omega

/-- A listing in any order is sorted to the order of the names. -/
lemma sort_listing {α : Type*} {listing records : List (String × α)}
    (hlisting : listing.Perm records) (hordered : records.Pairwise fun e f => e.1 < f.1) :
    listing.insertionSort (fun e f => e.1 ≤ f.1) = records := by
  have hdistinct : (records.map Prod.fst).Nodup :=
    List.pairwise_map.mpr (hordered.imp fun h => ne_of_lt h)
  have hname : ∀ e f : String × α, e ∈ listing.insertionSort (fun e f => e.1 ≤ f.1) →
      f ∈ records → e.1 ≤ f.1 → f.1 ≤ e.1 → e = f := by
    intro e f he hf hef hfe
    rw [List.mem_insertionSort, hlisting.mem_iff] at he
    exact List.inj_on_of_nodup_map hdistinct he hf (le_antisymm hef hfe)
  exact List.Perm.eq_of_pairwise hname (List.pairwise_insertionSort _ _)
    (hordered.imp fun h => le_of_lt h) ((List.perm_insertionSort _ _).trans hlisting)

/-! ### Records -/

lemma reread_optionText [FloatRead] (text : Option String) :
    (optionText text).reread = optionText text := by
  cases text <;> rfl

/-- A record as it is read from its file. -/
def rereadRecord [FloatRead] (r : Record) : Record where
  value := r.value.reread
  distinct fields h := by
    obtain ⟨all, hv, rfl⟩ := Value.reread_eq_object h
    rw [OrderedMap.keys, List.map_map]
    exact r.distinct all hv

lemma rereadRecord_eq_self [FloatRead] {r : Record} (h : r.value.reread = r.value) :
    rereadRecord r = r := by
  cases r
  simpa only [rereadRecord, Record.mk.injEq] using h

/-- A record without a binary64 is read as it was written. -/
lemma rereadRecord_of_integral [FloatRead] {r : Record} (h : r.value.integral) :
    rereadRecord r = r :=
  rereadRecord_eq_self (Value.reread_of_integral h)

lemma get_rereadRecord [FloatRead] (r : Record) (key : String) :
    (rereadRecord r).get key = (r.get key).map Value.reread :=
  Value.get_reread r.value key

section Hashed

variable [FloatText] [Digest]

/-- A record with its hash entered. -/
def withHash (fields : Map) (hashField : String) (hdistinct : (OrderedMap.keys fields).Nodup) :
    Record where
  value := .object (OrderedMap.insert fields hashField (.string (digestValue (.object fields))))
  distinct _ h := by
    cases h
    exact OrderedMap.nodup_keys_insert hdistinct _ _

/-- A hash that was entered last is taken out without a trace. -/
lemma unhashed_withHash {fields : Map} {hashField : String}
    (hdistinct : (OrderedMap.keys fields).Nodup) (hnew : OrderedMap.get fields hashField = none) :
    unhashed (withHash fields hashField hdistinct).value hashField = .object fields :=
  congrArg Value.object (OrderedMap.swapRemove_insert _ hnew)

lemma get_withHash {fields : Map} {hashField : String}
    (hdistinct : (OrderedMap.keys fields).Nodup) {key : String} (hne : hashField ≠ key) :
    (withHash fields hashField hdistinct).get key = OrderedMap.get fields key :=
  OrderedMap.get_insert_of_ne fields _ hne

lemma str_withHash {fields : Map} {hashField : String}
    (hdistinct : (OrderedMap.keys fields).Nodup) :
    (withHash fields hashField hdistinct).str hashField = some (digestValue (.object fields)) := by
  have hget : (withHash fields hashField hdistinct).get hashField =
      some (.string (digestValue (.object fields))) := OrderedMap.get_insert_self fields _ _
  rw [Record.str, hget]
  rfl

/-- The hash that is computed from the file is that of the fields as they are read. -/
lemma recomputeHash_rereadRecord_withHash [FloatRead] {fields : Map} {hashField : String}
    (hdistinct : (OrderedMap.keys fields).Nodup) (hnew : OrderedMap.get fields hashField = none) :
    recomputeHash (rereadRecord (withHash fields hashField hdistinct)) hashField =
      some ⟨digestValue (.object fields), digestValue (.object (Value.rereadFields fields))⟩ := by
  have hnew' : OrderedMap.get (Value.rereadFields fields) hashField = none := by
    rw [Value.rereadFields_eq, Value.get_map_reread, hnew]
    rfl
  have hfields : (rereadRecord (withHash fields hashField hdistinct)).value =
      .object (OrderedMap.insert (Value.rereadFields fields) hashField
        (.string (digestValue (.object fields)))) := by
    calc (rereadRecord (withHash fields hashField hdistinct)).value
        = .object (Value.rereadFields
            (OrderedMap.insert fields hashField (.string (digestValue (.object fields))))) := rfl
      _ = _ := by
          rw [OrderedMap.insert_of_get_none _ hnew, OrderedMap.insert_of_get_none _ hnew',
            Value.rereadFields_eq, Value.rereadFields_eq, List.map_append]
          rfl
  have hstored : (rereadRecord (withHash fields hashField hdistinct)).str hashField =
      some (digestValue (.object fields)) := by
    rw [Record.str, get_rereadRecord, Record.get, withHash, Value.get,
      OrderedMap.get_insert_self]
    rfl
  rw [recomputeHash, hstored, hfields, unhashed, OrderedMap.swapRemove_insert _ hnew']
  rfl

end Hashed

end EventLedger

end McpSurfaces
