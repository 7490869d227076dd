import McpSurfaces.Foundation.Sha256
import McpSurfaces.LedgerDomain.CursorToken

/-!
The segments that the mailbox puts into paths and URLs.

* `encodeComponent`: the percent encoding of a text, byte by byte.
  **`encodeComponent_injective`**: it is a prefix code, so that distinct texts have distinct
  segments.
* `viewSegment`: the segment of a view entry, a digest where the encoding is long.
-/

namespace McpSurfaces

namespace Mailbox

open LedgerDomain (utf8 utf8_injective)

/-! ### Percent encoding -/

/-- The bytes that stand for themselves. -/
def isUnreserved (byte : UInt8) : Bool :=
  let n := byte.toNat
  (48 ≤ n && n ≤ 57) || (65 ≤ n && n ≤ 90) || (97 ≤ n && n ≤ 122) || n == 45 || n == 95 ||
    n == 46 || n == 33 || n == 126 || n == 42 || n == 39 || n == 40 || n == 41

/-- An uppercase hexadecimal digit. -/
def upperHexDigit (n : ℕ) : Char := (Nat.digitChar n).toUpper

def encodeByte (byte : UInt8) : List Char :=
  if isUnreserved byte then [Char.ofNat byte.toNat]
  else ['%', upperHexDigit (byte.toNat / 16), upperHexDigit (byte.toNat % 16)]

/-- `encode_component`. -/
def encodeComponent (value : String) : String := String.ofList ((utf8 value).flatMap encodeByte)

private lemma upperHexDigit_inj : ∀ m < 16, ∀ n < 16, upperHexDigit m = upperHexDigit n → m = n := by
  decide

private lemma toNat_ofNat_byte (byte : UInt8) : (Char.ofNat byte.toNat).toNat = byte.toNat := by
  have hvalid : byte.toNat.isValidChar := Or.inl (by have := byte.toNat_lt; omega)
  rw [Char.ofNat, dif_pos hvalid]
  exact UInt32.toNat_ofNatLT

private lemma ofNat_ne_percent {byte : UInt8} (h : isUnreserved byte) :
    Char.ofNat byte.toNat ≠ '%' := by
  intro hpercent
  have hcode : byte.toNat = 37 := by rw [← toNat_ofNat_byte, hpercent]; rfl
  simp [isUnreserved, hcode] at h

/-- The encoding of a byte tells the byte, whatever comes behind it. -/
lemma encodeByte_append_inj {b c : UInt8} {r s : List Char}
    (h : encodeByte b ++ r = encodeByte c ++ s) : b = c ∧ r = s := by
  have hb : b.toNat < 256 := b.toNat_lt
  have hc : c.toNat < 256 := c.toNat_lt
  unfold encodeByte at h
  split_ifs at h with hplain hplain' hplain'
  · obtain ⟨hhead, htail⟩ := List.cons.inj h
    have hcode : b.toNat = c.toNat := by
      rw [← toNat_ofNat_byte b, hhead, toNat_ofNat_byte]
    exact ⟨UInt8.toNat_inj.mp hcode, htail⟩
  · exact absurd (List.cons.inj h).1 (ofNat_ne_percent hplain)
  · exact absurd (List.cons.inj h).1.symm (ofNat_ne_percent hplain')
  · obtain ⟨-, h⟩ := List.cons.inj h
    obtain ⟨hhigh, h⟩ := List.cons.inj h
    obtain ⟨hlow, htail⟩ := List.cons.inj h
    have hdiv := upperHexDigit_inj _ (by omega) _ (by omega) hhigh
    have hmod := upperHexDigit_inj _ (by omega) _ (by omega) hlow
    exact ⟨UInt8.toNat_inj.mp (by omega), htail⟩

lemma flatMap_encodeByte_inj {bs cs : List UInt8}
    (h : bs.flatMap encodeByte = cs.flatMap encodeByte) : bs = cs := by
  have hne (b : UInt8) (r : List Char) : encodeByte b ++ r ≠ [] := by
    unfold encodeByte
    split_ifs <;> exact List.cons_ne_nil _ _
  induction bs generalizing cs with
  | nil =>
      cases cs with
      | nil => rfl
      | cons c cs => exact absurd h.symm (hne c _)
  | cons b bs ih =>
      cases cs with
      | nil => exact absurd h (hne b _)
      | cons c cs =>
          obtain ⟨rfl, htail⟩ := encodeByte_append_inj h
          rw [ih htail]

/-- **Distinct texts have distinct encodings.** -/
theorem encodeComponent_injective {s t : String} (h : encodeComponent s = encodeComponent t) :
    s = t :=
  utf8_injective (flatMap_encodeByte_inj (String.ofList_injective h))

/-! ### Segments -/

/-- `safe_segment`. -/
def safeSegment (value : String) : String := encodeComponent value

/-- `sha256_hex` of the bytes of a text. -/
def sha256Hex (value : String) : String := Sha2.sha256 (utf8 value)

/-- `view_segment`. -/
def viewSegment (value : String) : String :=
  if (safeSegment value).length ≤ 64 then safeSegment value
  else "key_" ++ String.ofList ((sha256Hex value).toList.take 32)

lemma viewSegment_of_short {value : String} (h : (safeSegment value).length ≤ 64) :
    viewSegment value = safeSegment value := if_pos h

end Mailbox

end McpSurfaces
