import McpSurfaces.Foundation.HashChain
import McpSurfaces.Foundation.Lists
import McpSurfaces.Json.Text

/-!
The event ledger on disk: JSON records in files, and the verification of their hash
chain (`verify_files`, `recompute_hash`, `head`).

* `digestValue` is the digest of the compact text of a value, so that it depends on the
  order of the keys.
* **`same_prefix_of_hash`**: under an injective digest the hash of a record pins the
  content of every record up to it. The content is what the fields read (`SameFields`): the
  place of the hash field among the others is not digested.
-/

namespace McpSurfaces

namespace EventLedger

open Lists

/-! ### Failures, digests and records -/

/-- How an operation fails: with a refusal envelope, or by a panic. -/
inductive Failure where
  | error (envelope : Value)
  | panic (message : String)
deriving DecidableEq

/-- `ErrorSchema::error`: a refusal envelope. -/
def schemaError (schema code message : String) (details : Value) : Failure :=
  .error (.object [("schema", .string schema), ("code", .string code),
    ("message", .string message), ("details", details)])

/-- The code of a refusal. -/
def Failure.code : Failure → Option String
  | .error envelope => (envelope.get "code").bind Value.asStr
  | .panic _ => none

@[simp] lemma code_schemaError (schema code message : String) (details : Value) :
    (schemaError schema code message details).code = some code := rfl

/-- The digest function, SHA-256 as a hexadecimal text. -/
class Digest where
  sha256 : String → String

/-- `digest_value`: the digest of the compact text of a value. -/
def digestValue [FloatText] [Digest] (v : Value) : String := Digest.sha256 v.text

/-- A JSON value that was read: the keys of an object are distinct. -/
structure Record where
  value : Value
  distinct : ∀ fields, value = .object fields → (OrderedMap.keys fields).Nodup

namespace Record

def get (r : Record) (key : String) : Option Value := r.value.get key

/-- The text under a key. -/
def str (r : Record) (key : String) : Option String := (r.get key).bind Value.asStr

/-- The natural number under a key. -/
def u64 (r : Record) (key : String) : Option ℕ := (r.get key).bind Value.asU64

end Record

/-- Records whose fields read the same. -/
def SameFields (r s : Record) : Prop := ∀ key, r.get key = s.get key

/-- A file of the ledger directory, with what reading it gives. -/
structure LedgerFile where
  path : String
  content : Except Failure Record

/-- An optional text as JSON. -/
def optionText : Option String → Value
  | some s => .string s
  | none => .null

/-! ### Verification -/

/-- The code and the message of one kind of refusal. -/
structure Refusal where
  code : String
  message : String

structure ChainSpec where
  hashField : String
  previousHashField : String
  ordinalField : String
  ordinalStart : ℕ
  missingHash : Refusal
  ordinalInvalid : Refusal
  linkInvalid : Refusal
  hashInvalid : Refusal

/-- The chain of the event ledger. -/
def standardChainSpec (hashField : String) : ChainSpec where
  hashField := hashField
  previousHashField := "previous_hash"
  ordinalField := "sequence"
  ordinalStart := 1
  missingHash := ⟨"ledger_hash_missing", "ledger " ++ hashField ++ " is missing"⟩
  ordinalInvalid := ⟨"ledger_sequence_invalid", "ledger sequence is not contiguous"⟩
  linkInvalid := ⟨"ledger_chain_invalid", "ledger previous_hash does not match"⟩
  hashInvalid :=
    ⟨"ledger_hash_invalid", "ledger " ++ hashField ++ " does not match content"⟩

structure RecomputedHash where
  stored : String
  computed : String

/-- The record without its hash field. -/
def unhashed (v : Value) (hashField : String) : Value :=
  match v with
  | .object fields => .object (OrderedMap.swapRemove fields hashField)
  | other => other

section Verify

variable [FloatText] [Digest]

/-- `recompute_hash`: nothing for a record without a hash. -/
def recomputeHash (item : Record) (hashField : String) : Option RecomputedHash :=
  (item.str hashField).map fun stored =>
    ⟨stored, digestValue (unhashed item.value hashField)⟩

/-- The checks of `verify_files` on one record, in order: the ordinal, the link, the
presence of the hash and the hash itself, which is the result. -/
def checkRecord (schema : String) (spec : ChainSpec) (expectedPrevious : Option String)
    (expectedOrdinal : ℕ) (path : String) (item : Record) : Except Failure String :=
  if item.u64 spec.ordinalField ≠ some expectedOrdinal then
    .error (schemaError schema spec.ordinalInvalid.code spec.ordinalInvalid.message
      (.object [("path", .string path),
        ("expected_" ++ spec.ordinalField, .ofNat expectedOrdinal),
        ("actual_" ++ spec.ordinalField, (item.get spec.ordinalField).getD .null)]))
  else if item.str spec.previousHashField ≠ expectedPrevious then
    .error (schemaError schema spec.linkInvalid.code spec.linkInvalid.message
      (.object [("path", .string path), ("expected_previous", optionText expectedPrevious),
        ("actual_previous", (item.get spec.previousHashField).getD .null)]))
  else
    match recomputeHash item spec.hashField with
    | none =>
        .error (schemaError schema spec.missingHash.code spec.missingHash.message
          (.object [("path", .string path)]))
    | some hash =>
        if hash.stored ≠ hash.computed then
          .error (schemaError schema spec.hashInvalid.code spec.hashInvalid.message
            (.object [("path", .string path), ("expected_hash", .string hash.computed),
              ("actual_hash", .string hash.stored)]))
        else .ok hash.stored

/-- The loop of `verify_files`, behind a record with the given hash. -/
def verifyFrom (schema : String) (spec : ChainSpec) :
    Option String → ℕ → List LedgerFile → Except Failure (List Record)
  | _, _, [] => .ok []
  | expectedPrevious, expectedOrdinal, file :: rest => do
      let item ← file.content
      let stored ← checkRecord schema spec expectedPrevious expectedOrdinal file.path item
      let items ← verifyFrom schema spec (some stored) (expectedOrdinal + 1) rest
      return item :: items

def verifyFiles (schema : String) (files : List LedgerFile) (spec : ChainSpec) :
    Except Failure (List Record) :=
  verifyFrom schema spec none spec.ordinalStart files

/-- `ledger::verify`: the records of a ledger whose chain is intact. -/
def verify (schema : String) (files : List LedgerFile) (hashField : String) :
    Except Failure (List Record) :=
  verifyFiles schema files (standardChainSpec hashField)

end Verify

/-- `ledger::head`: the hash of the last record. -/
def head (files : List LedgerFile) (hashField : String) : Except Failure (Option String) :=
  match files.getLast? with
  | none => .ok none
  | some file => do
      let item ← file.content
      return item.str hashField

/-- `find_by_idempotency`: the first record with an idempotency key. -/
def findByIdempotency : List LedgerFile → String → Except Failure (Option Record)
  | [], _ => .ok none
  | file :: rest, key => do
      let item ← file.content
      if item.str "idempotency_key" = some key then return some item
      else findByIdempotency rest key

/-! ### The chain that verifies -/

/-- The hash of the previous record, as a record of the ledger names it. -/
def Record.previousHash (r : Record) : Option String := r.str "previous_hash"

section Chain

variable [FloatText] [Digest]

/-- The hash of the record is the digest of the rest of it. -/
def Sealed (hashField : String) (r : Record) : Prop :=
  r.str hashField = some (digestValue (unhashed r.value hashField))

/-- The records are a hash chain from the beginning. -/
def Chained (hashField : String) (records : List Record) : Prop :=
  HashChain.Linked Record.previousHash (fun r => r.str hashField) (Sealed hashField) none
    records

private lemma checkRecord_ok {schema hashField path stored : String}
    {previous : Option String} {ordinal : ℕ} {item : Record}
    (h : checkRecord schema (standardChainSpec hashField) previous ordinal path item =
      .ok stored) :
    item.u64 "sequence" = some ordinal ∧ item.previousHash = previous ∧
      item.str hashField = some stored ∧ Sealed hashField item := by
  rw [checkRecord] at h
  split_ifs at h with hordinal hlink
  cases hhash : recomputeHash item (standardChainSpec hashField).hashField with
  | none => rw [hhash] at h; cases h
  | some hash =>
      obtain ⟨text, htext, rfl⟩ := Option.map_eq_some_iff.mp hhash
      rw [hhash] at h
      simp only at h
      split_ifs at h with hdigest
      cases h
      have hsealed : item.str hashField = some (digestValue (unhashed item.value hashField)) :=
        htext.trans (congrArg some (not_not.mp hdigest))
      exact ⟨not_not.mp hordinal, not_not.mp hlink, htext, hsealed⟩

private lemma verifyFrom_ok {schema hashField : String} {previous : Option String} {ordinal : ℕ}
    {files : List LedgerFile} {records : List Record}
    (h : verifyFrom schema (standardChainSpec hashField) previous ordinal files = .ok records) :
    files.map LedgerFile.content = records.map .ok ∧
      HashChain.Linked Record.previousHash (fun r => r.str hashField) (Sealed hashField)
        previous records ∧
      ∀ i r, records[i]? = some r → r.u64 "sequence" = some (ordinal + i) := by
  induction files generalizing previous ordinal records with
  | nil =>
      cases h
      exact ⟨rfl, trivial, by simp⟩
  | cons file rest ih =>
      rw [verifyFrom] at h
      obtain ⟨item, hcontent, h⟩ := bind_eq_ok h
      obtain ⟨stored, hcheck, h⟩ := bind_eq_ok h
      obtain ⟨items, hitems, h⟩ := bind_eq_ok h
      cases h
      obtain ⟨hordinal, hlink, hstored, hsealed⟩ := checkRecord_ok hcheck
      obtain ⟨hread, hchain, hnumber⟩ := ih hitems
      refine ⟨?_, ⟨hlink, hsealed, ?_, ?_⟩, ?_⟩
      · rw [List.map_cons, List.map_cons, hcontent, hread]
      · simp only [hstored, Option.isSome_some]
      · simpa only [hstored] using hchain
      · intro i r hr
        cases i with
        | zero => cases hr; exact hordinal
        | succ i =>
            rw [hnumber i r hr]
            congr 1
            omega

private lemma checkRecord_of_sealed {schema hashField path : String} {previous : Option String}
    {ordinal : ℕ} {item : Record}
    (hordinal : item.u64 (standardChainSpec hashField).ordinalField = some ordinal)
    (hlink : item.str (standardChainSpec hashField).previousHashField = previous)
    (hsealed : Sealed hashField item) :
    checkRecord schema (standardChainSpec hashField) previous ordinal path item =
      .ok (digestValue (unhashed item.value hashField)) := by
  have hhash : recomputeHash item (standardChainSpec hashField).hashField =
      some ⟨digestValue (unhashed item.value hashField),
        digestValue (unhashed item.value hashField)⟩ :=
    congrArg (Option.map _) hsealed
  rw [checkRecord, if_neg (not_not.mpr hordinal), if_neg (not_not.mpr hlink), hhash]
  exact if_neg (not_not.mpr rfl)

private lemma verifyFrom_of_linked {schema hashField : String} {previous : Option String}
    {ordinal : ℕ} {files : List LedgerFile} {records : List Record}
    (hcontents : files.map LedgerFile.content = records.map .ok)
    (hlinked : HashChain.Linked Record.previousHash (fun r => r.str hashField) (Sealed hashField)
      previous records)
    (hnumber : ∀ i r, records[i]? = some r → r.u64 "sequence" = some (ordinal + i)) :
    verifyFrom schema (standardChainSpec hashField) previous ordinal files = .ok records := by
  induction files generalizing previous ordinal records with
  | nil =>
      rw [List.map_nil, eq_comm, List.map_eq_nil_iff] at hcontents
      rw [hcontents]
      rfl
  | cons file rest ih =>
      cases records with
      | nil => simp at hcontents
      | cons r records =>
          rw [List.map_cons, List.map_cons, List.cons.injEq] at hcontents
          obtain ⟨hprevious, hsealed, -, hrest⟩ := hlinked
          have hcheck : checkRecord schema (standardChainSpec hashField) previous ordinal
              file.path r = .ok (digestValue (unhashed r.value hashField)) :=
            checkRecord_of_sealed (hnumber 0 r rfl) hprevious hsealed
          have hstored : r.str hashField = some (digestValue (unhashed r.value hashField)) := hsealed
          simp only [hstored] at hrest
          have hnumber' : ∀ i s, records[i]? = some s →
              s.u64 "sequence" = some (ordinal + 1 + i) := fun i s hs => by
            rw [hnumber (i + 1) s hs]
            congr 1
            omega
          have hitems := ih hcontents.2 hrest hnumber'
          rw [verifyFrom, hcontents.1]
          simp only [bind, Except.bind, hcheck, hitems]
          rfl

variable {schema hashField : String} {files : List LedgerFile} {records : List Record}

/-- The records that verify are those in the files. -/
lemma verify_contents (h : verify schema files hashField = .ok records) :
    files.map LedgerFile.content = records.map .ok :=
  (verifyFrom_ok h).1

lemma verify_length (h : verify schema files hashField = .ok records) :
    files.length = records.length := by
  simpa using congrArg List.length (verify_contents h)

/-- **What verifies is a chain.** -/
lemma verify_chained (h : verify schema files hashField = .ok records) :
    Chained hashField records :=
  (verifyFrom_ok h).2.1

/-- The records are numbered from one. -/
lemma verify_sequence (h : verify schema files hashField = .ok records) {i : ℕ} {r : Record}
    (hr : records[i]? = some r) : r.u64 "sequence" = some (i + 1) := by
  rw [(verifyFrom_ok h).2.2 i r hr, Nat.add_comm]
  rfl

/-- A numbered chain verifies. -/
lemma verify_of_chained (hcontents : files.map LedgerFile.content = records.map .ok)
    (hchained : Chained hashField records)
    (hnumber : ∀ i r, records[i]? = some r → r.u64 "sequence" = some (i + 1)) :
    verify schema files hashField = .ok records :=
  verifyFrom_of_linked hcontents hchained fun i r hr => by
    rw [hnumber i r hr, Nat.add_comm]
    rfl

/-- The head of a ledger that verifies is that of its chain. -/
lemma head_of_verify (h : verify schema files hashField = .ok records) :
    head files hashField =
      .ok (HashChain.head (fun r : Record => r.str hashField) none records) := by
  have hlast := congrArg List.getLast? (verify_contents h)
  rw [List.getLast?_map, List.getLast?_map] at hlast
  rw [head, HashChain.head_eq_getLast?]
  cases hfile : files.getLast? with
  | none =>
      rw [hfile] at hlast
      rw [Option.map_none, eq_comm, Option.map_eq_none_iff] at hlast
      rw [hlast]
      rfl
  | some file =>
      rw [hfile] at hlast
      rw [Option.map_some, eq_comm, Option.map_eq_some_iff] at hlast
      obtain ⟨r, hr, hcontent⟩ := hlast
      simp only [← hcontent, hr]
      rfl

/-! ### The hash pins the content -/

omit [FloatText] [Digest] in
private lemma get_unhashed {r : Record} {hashField key : String} (hne : hashField ≠ key) :
    (unhashed r.value hashField).get key = r.get key := by
  rw [Record.get]
  cases hv : r.value with
  | object fields => exact OrderedMap.get_swapRemove (r.distinct fields hv) hne
  | _ => rfl

/-- Under an injective digest the hash of a record pins what its fields read. -/
lemma pinning (hdigest : Function.Injective digestValue) (hashField : String) :
    HashChain.Pinning Record.previousHash (fun r => r.str hashField) (Sealed hashField)
      SameFields where
  same r s hr hs _ hhash key := by
    have hrest : unhashed r.value hashField = unhashed s.value hashField :=
      hdigest (Option.some.inj (hr.symm.trans (hhash.trans hs)))
    by_cases hkey : hashField = key
    · subst hkey
      have hstr : ∀ t : Record, Sealed hashField t →
          t.get hashField = some (.string (digestValue (unhashed t.value hashField))) := by
        intro t ht
        obtain ⟨v, hv, hvs⟩ := Option.bind_eq_some_iff.mp ht
        rw [hv, Value.asStr_eq_some.mp hvs]
      rw [hstr r hr, hstr s hs, hrest]
    · rw [← get_unhashed hkey, ← get_unhashed hkey, hrest]
  prev_eq r s h := by
    rw [Record.previousHash, Record.previousHash, Record.str, Record.str, h]

/-- **A hash pins the prefix of a ledger**: where the head of a chain is the hash of a
record of another one at the same place, the two agree up to there. -/
theorem same_prefix_of_hash (hdigest : Function.Injective digestValue)
    {earlier : List Record}
    (hearlier : Chained hashField earlier) (hrecords : Chained hashField records)
    (hlen : earlier.length ≤ records.length)
    (hhead : HashChain.head (fun r : Record => r.str hashField) none earlier =
      HashChain.head (fun r : Record => r.str hashField) none (records.take earlier.length)) :
    List.Forall₂ SameFields earlier (records.take earlier.length) :=
  HashChain.same_take_of_hash_eq (pinning hdigest hashField) hearlier hrecords hlen hhead

end Chain

end EventLedger

end McpSurfaces
