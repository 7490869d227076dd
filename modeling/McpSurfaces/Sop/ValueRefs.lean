import McpSurfaces.Foundation.Fallible
import McpSurfaces.Sop.Values

/-!
Texts and references to stored values that were read: reading them again changes nothing.

* `normalizeValueRef_ok`: what is read as a reference is in a normal form.
* **`normalizeValueRef_column`**: a reference that was written to its column and read back is the
  same.
-/

namespace McpSurfaces

namespace Sop

open EventLedger (Digest)
open Lists

/-! ### Values that were read -/

/-- A text that was read is read again. -/
lemma requiredText_of_read {s code text : String} {max : ℕ} (h : requiredText s code max = .ok text)
    (code' : String) : requiredText text code' max = .ok text := by
  dsimp only [requiredText] at h ⊢
  split_ifs at h with hblank hlong
  cases h
  rw [Str.trim_trim, if_neg hblank, if_neg hlong]

lemma requiredString_of_read {v : Option Value} {code text : String} {max : ℕ}
    (h : requiredString v code max = .ok text) (code' : String) :
    requiredString (some (.string text)) code' max = .ok text := by
  unfold requiredString at h
  split at h
  · exact requiredText_of_read h code'
  · cases h

/-- A digest in lower case is read as it is. -/
lemma toLower_of_isSha256 {s : String} (h : isSha256 s) (code : String) :
    s.toLower = s ∧ requiredText s code 64 = .ok s := by
  rw [isSha256, Bool.and_eq_true, beq_iff_eq, List.all_eq_true] at h
  obtain ⟨hlength, hdigits⟩ := h
  have hplain : ∀ c ∈ s.toList, ¬ Str.isWhitespace c ∧ c.toLower = c := by
    intro c hc
    have hdigit := hdigits c hc
    simp only [Char.isDigit, Char.le_def, Bool.or_eq_true, Bool.and_eq_true, decide_eq_true_eq,
      UInt32.le_iff_toNat_le, ge_iff_le] at hdigit
    change (48 ≤ c.toNat ∧ c.toNat ≤ 57) ∨ (97 ≤ c.toNat ∧ c.toNat ≤ 102) at hdigit
    constructor
    · simp only [Str.isWhitespace, Bool.or_eq_true, Bool.and_eq_true, decide_eq_true_eq, beq_iff_eq]
      omega
    · delta Char.toLower
      rw [dif_neg]
      simp only [ge_iff_le, UInt32.le_iff_toNat_le]
      change ¬ (65 ≤ c.toNat ∧ c.toNat ≤ 90)
      omega
  constructor
  · delta String.toLower
    rw [← String.toList_inj, String.toList_map]
    exact (List.map_congr_left fun c hc => (hplain c hc).2).trans (List.map_id' _)
  · have htrim := Str.trim_eq_self fun c hc => (hplain c hc).1
    have hlong : ¬ 64 < s.length := by
      rw [← String.length_toList, hlength]
      exact lt_irrefl _
    have hblank : s ≠ "" := by
      rintro rfl
      exact absurd hlength (by decide)
    rw [requiredText, htrim, if_neg hblank, if_neg hlong]

/-- A size that was read. -/
def IsSize (v : Value) : Prop := v = .null ∨ ∃ n < 2 ^ 63, v = .ofNat n

/-- A type of media that was read. -/
def IsMedia (v : Value) : Prop :=
  v = .null ∨ ∃ text, v = .string text ∧ ∀ code, requiredText text code 200 = .ok text

/-- A reference to a value that is stored elsewhere. -/
def reference (ref sha256 : String) (byteLength mediaType : Value) : Value :=
  .object [("ref", .string ref), ("sha256", .string sha256), ("byte_length", byteLength),
    ("media_type", mediaType)]

lemma lt_of_asI64 {v : Value} {n : ℕ} (h : v.asI64 = some (.ofNat n)) : n < 2 ^ 63 := by
  cases v with
  | number number =>
      cases number with
      | posInt k _ =>
          simp only [Value.asI64, Number.asI64] at h
          split_ifs at h with hk
          cases Int.ofNat.inj (Option.some.inj h)
          exact hk
      | negInt k _ => cases h
      | float x => cases h
  | _ => cases h

lemma isSize_refByteLength {object : Map} {field : String} {length : Value}
    (h : refByteLength object field = .ok length) : IsSize length := by
  unfold refByteLength at h
  split at h
  · cases h
    exact .inl rfl
  · split at h
    next n hn =>
      cases h
      exact .inr ⟨n, lt_of_asI64 hn, rfl⟩
    · cases h

lemma isMedia_refMediaType {object : Map} {media : Value} (h : refMediaType object = .ok media) :
    IsMedia media := by
  unfold refMediaType at h
  split at h
  · cases h
    exact .inl rfl
  next value _ =>
    cases htext : requiredString (some value) "sop_string_required" 200 with
    | error stop =>
        rw [htext] at h
        cases h
    | ok text =>
        rw [htext] at h
        cases h
        exact .inr ⟨text, rfl, fun code => requiredString_of_read htext code⟩

/-- What is read as a reference is none, or in its normal form. -/
lemma normalizeValueRef_ok {v : Option Value} {field : String} {r : Value}
    (h : normalizeValueRef v field = .ok r) :
    r = .null ∨ ∃ ref sha length media, r = reference ref sha length media ∧
      (∀ code, requiredText ref code 2048 = .ok ref) ∧ isSha256 sha ∧ IsSize length ∧
      IsMedia media := by
  unfold normalizeValueRef at h
  split at h
  · cases h
    exact .inl rfl
  next value hvalue =>
    split at h
    · cases h
    next object hobject =>
      obtain ⟨-, h⟩ := guard_ok h
      obtain ⟨ref, href, h⟩ := bind_eq_ok h
      obtain ⟨sha, -, h⟩ := bind_eq_ok h
      obtain ⟨hdigits, h⟩ := guard_ok h
      obtain ⟨length, hlength, h⟩ := bind_eq_ok h
      obtain ⟨media, hmedia, h⟩ := bind_eq_ok h
      cases h
      exact .inr ⟨ref, _, length, media, rfl, fun code => requiredString_of_read href code,
        not_not.mp hdigits, isSize_refByteLength hlength, isMedia_refMediaType hmedia⟩

variable [FloatText] [FloatRead] [Digest]

omit [Digest] in
/-- A reference that was read, written to its column, is read as it was. -/
lemma normalizeValueRef_column {v : Option Value} {field : String} {r : Value}
    (h : normalizeValueRef v field = .ok r) (field' : String) :
    normalizeValueRef (some (column r)) field' = .ok r := by
  obtain rfl | ⟨ref, sha, length, media, rfl, href, hsha, hlength, hmedia⟩ := normalizeValueRef_ok h
  · rfl
  · obtain ⟨hlower, hread⟩ := toLower_of_isSha256 hsha "sop_string_required"
    have hsize : length.depth = 0 ∧ length.reread = length ∧ ∀ object : Map,
        object.get "byte_length" = some length → refByteLength object field' = .ok length := by
      rcases hlength with rfl | ⟨n, hn, rfl⟩
      · exact ⟨rfl, rfl, fun object hget => by rw [refByteLength, hget]; rfl⟩
      · have hread : (Value.ofNat n).asI64 = some (.ofNat n) := by
          simp only [Value.ofNat, Value.asI64, Number.asI64,
            Nat.mod_eq_of_lt (show n < 2 ^ 64 by omega), if_pos hn]
          rfl
        refine ⟨rfl, rfl, fun object hget => ?_⟩
        have hgiven : given (object.get "byte_length") = some (.ofNat n) := by
          rw [hget]
          rfl
        rw [refByteLength, hgiven]
        dsimp only
        rw [hread]
    have htype : media.depth = 0 ∧ media.reread = media ∧ ∀ object : Map,
        object.get "media_type" = some media → refMediaType object = .ok media := by
      rcases hmedia with rfl | ⟨text, rfl, htext⟩
      · exact ⟨rfl, rfl, fun object hget => by rw [refMediaType, hget]; rfl⟩
      · refine ⟨rfl, rfl, fun object hget => ?_⟩
        have hgiven : given (object.get "media_type") = some (.string text) := by
          rw [hget]
          rfl
        have hstring : requiredString (some (.string text)) "sop_string_required" 200 = .ok text :=
          htext _
        rw [refMediaType, hgiven]
        dsimp only
        rw [hstring]
        rfl
    have hcolumn : column (reference ref sha length media) = reference ref sha length media := by
      have hdepth : (reference ref sha length media).depth = 1 := by
        simp [reference, Value.depth, Value.depthFields, hsize.1, htype.1]
      rw [column, if_pos (by rw [hdepth]; decide)]
      simp [reference, Value.reread, Value.rereadFields, hsize.2.1, htype.2.1]
    have hreadRef : requiredString (some (.string ref)) "sop_string_required" 2048 = .ok ref :=
      href _
    have hreadSha : requiredString (some (.string sha)) "sop_string_required" 64 = .ok sha := hread
    have hkeys : (OrderedMap.keys [("ref", Value.string ref), ("sha256", .string sha),
        ("byte_length", length), ("media_type", media)]).all
          (["ref", "sha256", "byte_length", "media_type"].contains ·) = true := rfl
    rw [hcolumn]
    unfold normalizeValueRef
    split
    next hnone => cases hnone
    next value hvalue =>
      obtain rfl := Option.some.inj hvalue
      refine (guard_of_not (not_not.mpr hkeys)).trans ((bind_of_ok hreadRef _).trans ?_)
      refine (bind_of_ok hreadSha _).trans ?_
      rw [hlower]
      refine (guard_of_not (not_not.mpr hsha)).trans ?_
      refine (bind_of_ok (hsize.2.2 _ rfl) _).trans ?_
      exact (bind_of_ok (htype.2.2 _ rfl) _).trans rfl

end Sop

end McpSurfaces
