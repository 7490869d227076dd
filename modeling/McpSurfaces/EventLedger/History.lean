import McpSurfaces.EventLedger.Chain

/-!
The head of a ledger stands for its whole history.

* `sameEvent_pinning`: a hash pins the fields of an event, wherever the hash field stands.
* **`head_binds_history`**: two ledgers that verify and have the same head hold the same
  events, one by one.
-/

namespace McpSurfaces

namespace EventLedger

/-- Events with the same fields, in some order. -/
def SameEvent (r s : Record) : Prop := SameFields r s ∧ r.value.SameObject s.value

section History

variable [FloatText] [Digest]

/-- The digest of values is as injective as that of texts. -/
lemma digestValue_injective (hsha : Function.Injective Digest.sha256)
    (hfloat : FloatText.Lawful) : Function.Injective digestValue :=
  fun _ _ h => Value.text_injective hfloat (hsha h)

/-- A hash pins the fields of a sealed record. -/
lemma sameEvent_pinning (hdigest : Function.Injective digestValue) (hashField : String) :
    HashChain.Pinning Record.previousHash (fun r => r.str hashField) (Sealed hashField)
      SameEvent where
  same r s hr hs hsome hhash := by
    refine ⟨(pinning hdigest hashField).same r s hr hs hsome hhash, ?_⟩
    have hrest : unhashed r.value hashField = unhashed s.value hashField :=
      hdigest (Option.some.inj (hr.symm.trans (hhash.trans hs)))
    have hobject : ∀ t : Record, Sealed hashField t → ∃ fields,
        t.value = .object fields ∧ fields.Perm
          ((hashField, .string (digestValue (unhashed t.value hashField))) ::
            OrderedMap.swapRemove fields hashField) := by
      intro t ht
      obtain ⟨v, hv, hstr⟩ := Option.bind_eq_some_iff.mp ht
      rw [Value.asStr_eq_some] at hstr
      rw [Record.get] at hv
      cases hvalue : t.value with
      | object fields =>
          rw [hvalue] at hv hstr
          exact ⟨fields, rfl, hstr ▸ OrderedMap.swapRemove_perm hv⟩
      | _ => rw [hvalue] at hv; cases hv
    obtain ⟨fields, hfields, hperm⟩ := hobject r hr
    obtain ⟨fields', hfields', hperm'⟩ := hobject s hs
    have hremoved : OrderedMap.swapRemove fields hashField =
        OrderedMap.swapRemove fields' hashField := by
      rw [hfields, hfields', unhashed, unhashed, Value.object.injEq] at hrest
      exact hrest
    rw [hrest, hremoved] at hperm
    exact ⟨fields, fields', hfields, hfields', hperm.trans hperm'.symm⟩
  prev_eq r s h := (pinning hdigest hashField).prev_eq r s h.1

variable {schema schema' hashField : String} {files files' : List LedgerFile}
  {records records' : List Record}

/-- **The head tells the number of events.** -/
lemma length_eq_of_head_eq (hdigest : Function.Injective digestValue)
    (h : verify schema files hashField = .ok records)
    (h' : verify schema' files' hashField = .ok records')
    (hhead : HashChain.head (fun r : Record => r.str hashField) none records =
      HashChain.head (fun r : Record => r.str hashField) none records') :
    records.length = records'.length := by
  rw [HashChain.head_eq_getLast?, HashChain.head_eq_getLast?] at hhead
  have hsealed := HashChain.Linked.sealed (verify_chained h)
  have hsealed' := HashChain.Linked.sealed (verify_chained h')
  rcases List.eq_nil_or_concat' records with rfl | ⟨front, last, rfl⟩ <;>
    rcases List.eq_nil_or_concat' records' with rfl | ⟨front', last', rfl⟩
  · rfl
  · have hsome := (hsealed' last' (by simp)).2
    simp only [List.getLast?_nil, List.getLast?_concat, Option.map_none, Option.map_some,
      Option.getD_none, Option.getD_some] at hhead
    rw [← hhead] at hsome
    cases hsome
  · have hsome := (hsealed last (by simp)).2
    simp only [List.getLast?_nil, List.getLast?_concat, Option.map_none, Option.map_some,
      Option.getD_none, Option.getD_some] at hhead
    rw [hhead] at hsome
    cases hsome
  · simp only [List.getLast?_concat, Option.map_some, Option.getD_some] at hhead
    have hlast := hsealed last (by simp)
    have hsame := (sameEvent_pinning hdigest hashField).same last last' hlast.1
      (hsealed' last' (by simp)).1 hlast.2 hhead
    have hsequence : last.u64 "sequence" = some (front.length + 1) :=
      verify_sequence h (by simp)
    have hsequence' : last'.u64 "sequence" = some (front'.length + 1) :=
      verify_sequence h' (by simp)
    rw [Record.u64, hsame.1 "sequence", ← Record.u64, hsequence'] at hsequence
    simpa using (Option.some.inj hsequence).symm

/-- The events of the files are the same, and equal for `==`. -/
def SameHistory (files files' : List LedgerFile) : Prop :=
  List.Forall₂ (fun file file' => ∃ r r', file.content = .ok r ∧ file'.content = .ok r' ∧
    r.value.SameObject r'.value ∧ (r.value.Distinct → r.value.eqv r'.value)) files files'

/-- Ledgers that verify and have the same head hold the same events. -/
lemma sameHistory_of_head_eq (hdigest : Function.Injective digestValue)
    (h : verify schema files hashField = .ok records)
    (h' : verify schema' files' hashField = .ok records')
    (hhead : head files hashField = head files' hashField) : SameHistory files files' := by
  rw [head_of_verify h, head_of_verify h', Except.ok.injEq] at hhead
  have hsame := HashChain.same_of_head_eq (sameEvent_pinning hdigest hashField)
    (verify_chained h) (verify_chained h') (length_eq_of_head_eq hdigest h h' hhead) hhead
  have hread := verify_contents h
  have hread' := verify_contents h'
  clear h h' hhead
  induction hsame generalizing files files' with
  | nil =>
      rw [List.map_nil, List.map_eq_nil_iff] at hread hread'
      rw [hread, hread']
      exact .nil
  | @cons r r' _ _ hevent _ ih =>
      obtain ⟨file, rest, rfl, hfile, hrest⟩ := List.map_eq_cons_iff.mp hread
      obtain ⟨file', rest', rfl, hfile', hrest'⟩ := List.map_eq_cons_iff.mp hread'
      exact .cons ⟨r, r', hfile, hfile', hevent.2, hevent.2.eqv⟩ (ih hrest hrest')

/-- **The head binds the history**: two ledgers that verify and have the same head hold the
same events, one by one; a change of the events changes the head or is refused. -/
theorem head_binds_history (hsha : Function.Injective Digest.sha256)
    (hfloat : FloatText.Lawful) (h : verify schema files hashField = .ok records) :
    (∀ schema' files' records', verify schema' files' hashField = .ok records' →
      head files hashField = head files' hashField →
      files.length = files'.length ∧ SameHistory files files') ∧
    ∀ schema' files', ¬ SameHistory files files' →
      head files hashField ≠ head files' hashField ∨
        ∃ failure, verify schema' files' hashField = .error failure := by
  have hdigest := digestValue_injective hsha hfloat
  constructor
  · intro schema' files' records' h' hhead
    have hsame := sameHistory_of_head_eq hdigest h h' hhead
    exact ⟨hsame.length_eq, hsame⟩
  · intro schema' files' hdiffers
    cases h' : verify schema' files' hashField with
    | error failure => exact Or.inr ⟨failure, rfl⟩
    | ok records' =>
        exact Or.inl fun hhead => hdiffers (sameHistory_of_head_eq hdigest h h' hhead)

end History

/-- The first event of a ledger, with its hash. -/
def firstEvent [FloatText] [Digest] : Record :=
  let fields : Map := [("sequence", .ofNat 1), ("previous_hash", .null)]
  ⟨.object (fields ++ [("event_hash", .string (digestValue (.object fields)))]), fun all h => by
    cases h
    simp [fields, OrderedMap.keys]⟩

/-- A ledger of one event. -/
theorem head_binds_history_first :
    letI := FloatText.fields
    letI : Digest := ⟨id⟩
    ∃ records, verify "schema" [⟨"ev-1.json", .ok firstEvent⟩] "event_hash" = .ok records ∧
      ∀ schema' files', ¬ SameHistory [⟨"ev-1.json", .ok firstEvent⟩] files' →
        head [⟨"ev-1.json", .ok firstEvent⟩] "event_hash" ≠ head files' "event_hash" ∨
          ∃ failure, verify schema' files' "event_hash" = .error failure := by
  let _ : FloatText := FloatText.fields
  let _ : Digest := ⟨id⟩
  have hverify := Lists.eq_ok_of_isSome
    (x := verify "schema" [⟨"ev-1.json", .ok firstEvent⟩] "event_hash") (by decide +kernel) []
  exact ⟨_, hverify, (head_binds_history Function.injective_id FloatText.fields_lawful hverify).2⟩

end EventLedger

end McpSurfaces
