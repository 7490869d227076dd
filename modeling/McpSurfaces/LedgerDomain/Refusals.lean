import McpSurfaces.Foundation.Fallible
import McpSurfaces.LedgerDomain.Proposals

/-!
The codes with which the checks of a proposal refuse (`reviewCodes`), and that they refuse
with no other (`fails_proposalReview`).
-/

namespace McpSurfaces

namespace LedgerDomain

open EventLedger

/-- The codes of the refusals of a review. -/
def reviewCodes : List String :=
  ["required_argument_missing", "record_read_failed", "proposal_corrupt", "invalid_operation",
    "legacy_communication_kind_write_refused", "invalid_entity_kind", "invalid_relation_type",
    "communication_content_required", "communication_canonicalization_contract_mismatch",
    "communication_canonicalization_evidence_required", "evidence_required",
    "dangling_reference", "evidence_location_incomplete",
    "communication_canonicalization_lookup_failed",
    "communication_kind_canonicalization_collision"]

/-- A refusal with one of these codes. -/
def Coded (codes : List String) (failure : Failure) : Prop := ∃ code ∈ codes, failure.code = some code

private lemma refuses {α : Type} {code : String} (h : code ∈ reviewCodes) (message : String)
    (details : Value) :
    Fails (Coded reviewCodes) (.error (domainError epistemic code message details) :
      Except Failure α) :=
  .error ⟨code, h, code_schemaError _ _ _ _⟩

/-! ### The operations -/

lemma fails_required (object : Map) (key : String) :
    Fails (Coded reviewCodes) (required epistemic object key) := by
  rw [required]
  cases nonBlank object key with
  | some value => exact .ok value
  | none => exact refuses (by decide) _ _

lemma fails_requireAll (object : Map) (fields : List String) :
    Fails (Coded reviewCodes) (requireAll epistemic object fields) :=
  .forM fun field _ => .bind (fails_required object field) fun _ => .ok _

lemma fails_checkEntityKind (kind : String) :
    Fails (Coded reviewCodes) (checkEntityKind epistemic kind) :=
  .ite (refuses (by decide) _ _) (.ite (refuses (by decide) _ _) (.ok _))

lemma fails_checkRelationType (relationType : String) :
    Fails (Coded reviewCodes) (checkRelationType epistemic relationType) :=
  .ite (refuses (by decide) _ _) (.ok _)

lemma fails_checkField (object : Map) (kind field : String) :
    Fails (Coded reviewCodes) (checkField epistemic object kind field) := by
  refine .ite (.ok _) (.bind (fails_required object field) fun value => ?_)
  exact .when (fails_checkEntityKind value) fun _ => .ite (fails_checkRelationType value) (.ok _)

lemma fails_checkCommunication (object : Map) :
    Fails (Coded reviewCodes) (checkCommunication epistemic object) :=
  .bind (fails_requireAll object _) fun _ => .ite (.ok _) (refuses (by decide) _ _)

lemma fails_checkEntity (object : Map) :
    Fails (Coded reviewCodes) (checkEntity epistemic object) := by
  refine .ite (refuses (by decide) _ _) (.when (fails_checkCommunication object) fun _ => ?_)
  exact .forM fun rule _ => .ite (fails_requireAll object _) (.ok _)

lemma fails_checkCanonicalization (object : Map) :
    Fails (Coded reviewCodes) (checkCanonicalization epistemic object) := by
  refine .ite (refuses (by decide) _ _) ?_
  cases (object.get "equivalence_evidence").bind Value.asObject with
  | none => exact refuses (by decide) _ _
  | some evidence => exact fails_requireAll evidence _

lemma fails_validateOperation (requireEvidence : Bool) (op : Value) :
    Fails (Coded reviewCodes) (validateOperation epistemic requireEvidence op) := by
  rw [validateOperation]
  cases op.asObject with
  | none => exact refuses (by decide) _ _
  | some object =>
      refine .bind (fails_required object "op") fun kind => ?_
      dsimp only
      cases epistemic.requiredFields.get kind with
      | none => exact refuses (by decide) _ _
      | some fields =>
          refine .bind (.forM fun field _ => fails_checkField object kind field) fun _ => ?_
          refine .when (fails_checkEntity object) fun _ => ?_
          refine .when (fails_checkCanonicalization object) fun _ => ?_
          exact .ite (refuses (by decide) _ _) (.ok _)

lemma fails_validateOperations (ops : List Value) (requireEvidence : Bool) :
    Fails (Coded reviewCodes) (validateOperations epistemic ops requireEvidence) :=
  .forM fun op _ => fails_validateOperation requireEvidence op

/-! ### The references -/

lemma fails_requireKnown (known principals : List String) (field : String) (operation : Value) :
    Fails (Coded reviewCodes) (requireKnown epistemic known principals field operation) :=
  .ite (.ok _) (refuses (by decide) _ _)

lemma fails_requireLocation (subField : String) (entry : Value) :
    Fails (Coded reviewCodes) (requireLocation epistemic subField entry) := by
  refine .forM fun field _ => .ite (.ok _) ?_
  cases nonBlank (entry.asObject.getD []) field with
  | some value => exact .ok _
  | none => exact refuses (by decide) _ _

section References

variable [FloatRead]

omit [FloatRead] in
lemma fails_checkBinding (known principals : List String) (operation : Value)
    (binding : ReferenceBinding) :
    Fails (Coded reviewCodes) (checkBinding epistemic known principals operation binding) := by
  refine .ite (.forM fun field _ => ?_) (.ite (.forM fun field _ => ?_) (.ok _))
  · cases Str.splitOnce field "[]." with
    | none => exact .ok _
    | some parts =>
        exact .forM fun entry _ => .bind (fails_requireKnown known principals parts.2 entry)
          fun _ => fails_requireLocation parts.2 entry
  · exact fails_requireKnown known principals field operation

variable [FloatText] [Digest]

omit [FloatRead] in
lemma fails_checkEquivalence (view : Option Projection) (operation : Value) :
    Fails (Coded reviewCodes) (checkEquivalence epistemic view operation) := by
  rw [checkEquivalence]
  dsimp only
  cases (operation.get "equivalence_evidence").bind Value.asObject with
  | none => exact refuses (by decide) _ _
  | some evidence =>
      cases view with
      | none => exact refuses (by decide) _ _
      | some p =>
          dsimp only
          cases (p.entities epistemic).find? fun row =>
              row.get "entity_id" = some (textOf operation "entity_id") with
          | none => exact refuses (by decide) _ _
          | some row => exact .ite (refuses (by decide) _ _) (.ok _)

omit [FloatRead] in
lemma fails_checkReferences (views : Views) (known principals : List String) (position : ℕ)
    (operation : Value) :
    Fails (Coded reviewCodes)
      (checkReferences epistemic views known principals position operation) :=
  .when (fails_checkEquivalence _ _) fun _ =>
    .forM fun binding _ => fails_checkBinding known principals operation binding

lemma fails_validateReferences (views : Views) (operations : List Value) :
    Fails (Coded reviewCodes) (validateReferences epistemic views operations) :=
  .forM fun entry _ => fails_checkReferences views _ _ entry.2 entry.1

omit [FloatRead] [FloatText] [Digest] in
lemma fails_loadProposal (disk : Disk) (id : String) :
    Fails (Coded reviewCodes) (loadProposal epistemic disk id) := by
  rw [loadProposal]
  cases disk.proposals.get (safeName id) with
  | some proposal => exact .ok _
  | none => exact refuses (by decide) _ _

/-- **A review refuses with one of its codes.** -/
theorem fails_proposalReview (disk : Disk) (views : Views) (id : String) :
    Fails (Coded reviewCodes) (proposalReview epistemic disk views id) := by
  refine .bind (fails_loadProposal disk id) fun proposal => ?_
  dsimp only
  cases (proposal.get "operations").bind Value.asArray with
  | none => exact refuses (by decide) _ _
  | some operations =>
      refine .bind (fails_validateOperations operations true) fun _ => ?_
      exact .bind (fails_validateReferences views operations) fun _ => .ok _

end References

end LedgerDomain

end McpSurfaces
